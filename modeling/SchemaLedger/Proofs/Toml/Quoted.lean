import Mathlib.Tactic
import SchemaLedger.Toml.Quoted

/-!
Quoted texts of a settings file, written and read.

* `Style.IsSign`: characters that are read as one character.
* `Style.Codes`: what stands between the quotes of a style for a text. Quotes that stand for
  themselves are counted, because a run of them is read at once.
* `Style.Codes.read`: such a text is read back up to the closing quotes.
* `Style.codes_escapeAll`, `Style.codes_self`: what is written with and without escapes.
* `quoted?_quote`: a text in quotes is read back, whatever its characters are.
-/

namespace SchemaLedger.Toml

namespace Style

variable {style : Style} {run : Nat} {text code rest : List Char} {c : Char}

/-- How many quotes in a row may stand for themselves. -/
def room (style : Style) : Nat :=
  if style.manyLines then 2 else 0

/-- Characters that are read as one character. -/
structure IsSign (style : Style) (sign : List Char) (c : Char) : Prop where
  reads : ∀ rest, style.next? (sign ++ rest) = some (.more [c], rest)
  other : sign.head? ≠ some style.quote

/-- What stands between the quotes of a style for a text, after the given number of quotes that
stand for themselves. -/
inductive Codes (style : Style) : Nat → List Char → List Char → Prop
  | nil {run : Nat} : run ≤ style.room → Codes style run [] []
  /-- One more quote stands for itself. -/
  | quote {run : Nat} {text code : List Char} : Codes style (run + 1) text code →
      Codes style run (style.quote :: text) (style.quote :: code)
  | sign {run : Nat} {c : Char} {sign text code : List Char} : run ≤ style.room →
      style.IsSign sign c → Codes style 0 text code → Codes style run (c :: text) (sign ++ code)

/-- There are never more quotes in a row than may stand for themselves. -/
lemma Codes.le_room (h : style.Codes run text code) : run ≤ style.room := by
  induction h with
  | nil le => exact le
  | quote _ ih => exact Nat.le_of_succ_le ih
  | sign le => exact le

/-! ### Reading -/

/-- Nothing is read as nothing. -/
lemma IsSign.exists_cons {sign : List Char} (h : style.IsSign sign c) :
    ∃ d others, sign = d :: others ∧ d ≠ style.quote := by
  cases sign with
  | nil => exact absurd (h.reads []) (by simp [next?])
  | cons d others => exact ⟨d, others, rfl, fun same => h.other (congrArg some same)⟩

/-- The quotes in front of something else are counted. -/
lemma takeWhile_quotes (q : Char) (n : Nat) (stop : rest.head? ≠ some q) :
    (List.replicate n q ++ rest).takeWhile (· == q) = List.replicate n q := by
  rw [List.takeWhile_append_of_pos fun c hc => beq_iff_eq.2 (List.eq_of_mem_replicate hc)]
  cases rest with
  | nil => simp
  | cons c rest =>
    have other : (c == q) = false := beq_eq_false_iff_ne.2 fun h => stop (congrArg some h)
    rw [List.takeWhile_cons, other]
    simp

/-- Quotes in front of something else, in a style over several lines. -/
lemma atQuote?_quotes (lines : style.manyLines = true) (n : Nat)
    (stop : rest.head? ≠ some style.quote) :
    style.atQuote? (List.replicate n style.quote ++ rest) =
      if n < 3 then some (.more (List.replicate n style.quote), rest)
      else if n ≤ 5 then some (.last (List.replicate (n - 3) style.quote), rest)
      else none := by
  rw [atQuote?, if_pos lines, takeWhile_quotes _ _ stop]
  simp

/-- Quotes that stand for themselves are one piece. -/
lemma next?_quotes (le : run + 1 ≤ style.room) (stop : rest.head? ≠ some style.quote) :
    style.next? (List.replicate (run + 1) style.quote ++ rest) =
      some (.more (List.replicate (run + 1) style.quote), rest) := by
  have lines : style.manyLines = true := by
    by_contra one
    simp [room, one] at le
  have few : run + 1 < 3 := by
    simp only [room, lines, if_true] at le
    omega
  have next := atQuote?_quotes lines (run + 1) stop
  rw [if_pos few] at next
  rw [← next, List.replicate_succ, List.cons_append, next?, if_pos rfl]

/-- The quotes at the end, with those in front of them that belong to the text. -/
lemma next?_fence (le : run ≤ style.room) (stop : rest.head? ≠ some style.quote) :
    style.next? (List.replicate run style.quote ++ style.fence ++ rest) =
      some (.last (List.replicate run style.quote), rest) := by
  cases lines : style.manyLines with
  | true =>
    have few : run ≤ 2 := by simpa [room, lines] using le
    have next := atQuote?_quotes lines (run + 3) stop
    rw [if_neg (by omega), if_pos (by omega), Nat.add_sub_cancel] at next
    have joined : List.replicate run style.quote ++ style.fence =
        List.replicate (run + 3) style.quote := by
      rw [fence, if_pos lines, List.replicate_append_replicate]
    rw [joined, ← next, List.replicate_succ, List.cons_append, next?, if_pos rfl]
  | false =>
    have none : run = 0 := by simpa [room, lines] using le
    subst none
    simp [fence, lines, next?, atQuote?]

/-- A text that goes on after a piece. -/
lemma pieces?_more {cs cs' s t : List Char} {fuel : Nat}
    (next : style.next? cs = some (.more s, cs')) (others : style.pieces? fuel cs' = some (t, rest)) :
    style.pieces? (fuel + 1) cs = some (s ++ t, rest) := by
  simp only [pieces?, next, others, bind, Option.bind]

/-- What stands between the quotes is read back, whatever follows the closing ones. -/
lemma Codes.pieces (h : style.Codes run text code) {fuel : Nat} (enough : run + code.length < fuel)
    (stop : rest.head? ≠ some style.quote) :
    style.pieces? fuel (List.replicate run style.quote ++ code ++ style.fence ++ rest) =
      some (List.replicate run style.quote ++ text, rest) := by
  induction h generalizing fuel with
  | nil le =>
    obtain ⟨fuel, rfl⟩ := Nat.exists_eq_succ_of_ne_zero (Nat.ne_of_gt (Nat.zero_lt_of_lt enough))
    rw [List.append_nil, pieces?, next?_fence le stop]
    simp
  | @quote run text code _ ih =>
    have shift (cs : List Char) : List.replicate run style.quote ++ style.quote :: cs =
        List.replicate (run + 1) style.quote ++ cs := by
      rw [List.replicate_succ', List.append_assoc, List.singleton_append]
    rw [shift, shift]
    refine ih ?_
    rw [List.length_cons] at enough
    omega
  | @sign run c sign text code le read _ ih =>
    obtain ⟨d, others, rfl, other⟩ := read.exists_cons
    rw [List.length_append, List.length_cons] at enough
    simp only [List.append_assoc, List.replicate_zero, List.nil_append] at ih ⊢
    -- the character itself, once the quotes in front of it have been read
    have one {fuel : Nat} (enough : code.length < fuel) :
        style.pieces? (fuel + 1) (d :: others ++ (code ++ (style.fence ++ rest))) =
          some (c :: text, rest) :=
      pieces?_more (read.reads _) (ih (by omega))
    obtain ⟨fuel, rfl⟩ := Nat.exists_eq_succ_of_ne_zero (Nat.ne_of_gt (Nat.zero_lt_of_lt enough))
    cases run with
    | zero => exact one (by omega)
    | succ run =>
      obtain ⟨fuel, rfl⟩ : ∃ k, fuel = k + 1 := ⟨fuel - 1, by omega⟩
      have apart : (d :: others ++ (code ++ (style.fence ++ rest))).head? ≠ some style.quote := by
        simpa using other
      exact pieces?_more (next?_quotes le apart) (one (by omega))

/-- A line feed or a carriage return outside of escapes can only be read as a line feed. -/
lemma eq_lineFeed_of_next? {d : Char} {cs : List Char} (other : d ≠ style.quote)
    (control : d = '\n' ∨ d = '\r') (next : style.next? (d :: cs) = some (.more [c], rest)) :
    c = '\n' := by
  have backslash : d ≠ '\\' := by
    rcases control with rfl | rfl <;> decide
  have hidden : isPlain d = false := by
    rcases control with rfl | rfl <;> decide
  rw [next?, if_neg other, if_neg fun h => backslash h.1, hidden, if_neg Bool.false_ne_true] at next
  split at next
  · cases after : lineBreak? (d :: cs) with
    | none => simp [after] at next
    | some cs =>
      simp only [after, bind, Option.bind, Option.some.injEq, Prod.mk.injEq, Piece.more.injEq,
        List.cons.injEq] at next
      exact next.1.1.symm
  · cases next

/-- A line break starts with a line feed or a carriage return. -/
lemma lineBreak?_cons {d : Char} (visible : ¬(d = '\n' ∨ d = '\r')) (cs : List Char) :
    lineBreak? (d :: cs) = none := by
  rw [lineBreak?.eq_def]
  split <;> simp_all

/-- What stands for a text without line breaks does not start with one. -/
lemma Codes.not_lineBreak (h : style.Codes run text code) (breaks : '\n' ∉ text)
    (marks : ¬(style.quote = '\n' ∨ style.quote = '\r')) (rest : List Char) :
    lineBreak? (code ++ style.fence ++ rest) = none := by
  cases h with
  | nil _ =>
    rw [List.nil_append, fence]
    split <;> exact lineBreak?_cons marks _
  | quote _ => exact lineBreak?_cons marks _
  | sign _ read _ =>
    obtain ⟨d, others, rfl, other⟩ := read.exists_cons
    refine lineBreak?_cons (fun control => breaks ?_) _
    rw [eq_lineFeed_of_next? other control (read.reads [])]
    exact List.mem_cons_self ..

/-- What stands between the opening quotes of a style and what stands for a text. -/
def lead (style : Style) (text : List Char) : List Char :=
  if style.manyLines && text.contains '\n' then ['\n'] else []

/-- **A quoted text is read back**, whatever follows the closing quotes. -/
lemma Codes.read (h : style.Codes 0 text code)
    (marks : ¬(style.quote = '\n' ∨ style.quote = '\r')) (stop : rest.head? ≠ some style.quote) :
    style.read (style.lead text ++ code ++ style.fence ++ rest) = some (text, rest) := by
  have pieces : style.pieces? ((code ++ style.fence ++ rest).length + 1)
      (code ++ style.fence ++ rest) = some (text, rest) := by
    have enough : 0 + code.length < (code ++ style.fence ++ rest).length + 1 := by
      simp only [List.length_append]
      omega
    simpa using h.pieces enough stop
  rw [← pieces, Style.read, lead]
  cases lines : style.manyLines with
  | false => simp
  | true =>
    by_cases breaks : '\n' ∈ text
    · simp [breaks, lineBreak?]
    · have := h.not_lineBreak breaks marks rest
      simp only [List.append_assoc] at this
      simp [breaks, this]

/-! ### Writing -/

/-- A character that may stand in a text is a sign for itself. -/
lemma isSign_self (plain : isPlain c = true) (other : c ≠ style.quote)
    (backslash : ¬(c = '\\' ∧ style.escapes = true)) : style.IsSign [c] c where
  reads rest := by
    rw [List.singleton_append, next?, if_neg other, if_neg backslash, if_pos plain]
  other h := other (Option.some.inj h)

/-- A line feed is a sign for itself in a style over several lines. -/
lemma isSign_lineFeed (lines : style.manyLines = true) (marks : '\n' ≠ style.quote) :
    style.IsSign ['\n'] '\n' where
  reads rest := by
    have hidden : isPlain '\n' = false := by decide
    rw [List.singleton_append, next?, if_neg marks, if_neg fun h => absurd h.1 (by decide), hidden,
      if_neg Bool.false_ne_true, if_pos lines]
    rfl
  other h := marks (Option.some.inj h)

/-- An escape that stands for a character is a sign for it. -/
lemma isSign_escaped {sign : List Char} (escapes : style.escapes = true)
    (marks : '\\' ≠ style.quote) (reads : ∀ rest, escaped? (sign ++ rest) = some (c, rest)) : style.IsSign ('\\' :: sign) c where
  reads rest := by
    -- neither a blank nor a line break has an escape
    have stays : lineBreak? (dropBlank (sign ++ rest)) = none := by
      cases sign with
      | nil => exact absurd (reads []) (by simp [escaped?])
      | cons letter others =>
        have visible : ¬(letter = '\n' ∨ letter = '\r') := by
          rintro (rfl | rfl) <;> exact absurd (reads rest) (by simp [escaped?])
        have blank : isBlank letter = false := by
          rw [← Bool.not_eq_true, isBlank, Bool.or_eq_true, beq_iff_eq, beq_iff_eq]
          rintro (rfl | rfl) <;> exact absurd (reads rest) (by simp [escaped?])
        rw [List.cons_append, dropBlank, List.dropWhile_cons, blank]
        exact lineBreak?_cons visible _
    rw [List.cons_append, next?, if_neg marks, if_pos ⟨rfl, escapes⟩, afterBackslash?, stays, reads]
    cases style.manyLines <;> rfl
  other h := marks (Option.some.inj h)

/-- A capital hexadecimal digit is read back. -/
lemma hexValue?_toUpper_hexDigit {n : Nat} (h : n < 16) :
    Text.hexValue? (Text.hexDigit n).toUpper = some n := by
  revert n
  decide

/-- A control character is read back from its four digits. -/
lemma escaped?_hexDigits (hidden : isPlain c = false) (rest : List Char) :
    escaped? ('u' :: '0' :: '0' :: (Text.hexDigit (c.toNat / 16)).toUpper ::
      (Text.hexDigit (c.toNat % 16)).toUpper :: rest) = some (c, rest) := by
  have small : c.toNat < 128 := by
    simp only [isPlain, Bool.or_eq_false_iff, Bool.and_eq_false_iff, decide_eq_false_iff_not,
      bne_eq_false_iff_eq] at hidden
    omega
  have number : 16 * (c.toNat / 16) + c.toNat % 16 = c.toNat := Nat.div_add_mod _ _
  have valid : c.toNat.isValidChar := .inl (by omega)
  simp only [escaped?, hexNumber?, hexValue?_toUpper_hexDigit (show c.toNat / 16 < 16 by omega),
    hexValue?_toUpper_hexDigit (show c.toNat % 16 < 16 by omega),
    show Text.hexValue? '0' = some 0 from rfl, bind, Option.bind, Nat.mul_zero, Nat.zero_add,
    number, charOf?, if_pos valid, Char.ofNat_toNat]

/-- Every character but the quote has a sign where escapes are possible. -/
lemma isSign_escape (escapes : style.escapes = true) (marks : style.quote = '"') (other : c ≠ '"') :
    style.IsSign (escape style c) c := by
  have backslash : '\\' ≠ style.quote := by simp [marks]
  unfold escape
  split_ifs with feed lines back tab formFeed return_ slash plain
  · subst feed
    exact isSign_lineFeed lines (by simp [marks])
  · subst feed
    exact isSign_escaped escapes backslash fun _ => rfl
  · subst back
    exact isSign_escaped escapes backslash fun _ => rfl
  · subst tab
    exact isSign_escaped escapes backslash fun _ => rfl
  · subst formFeed
    exact isSign_escaped escapes backslash fun _ => rfl
  · subst return_
    exact isSign_escaped escapes backslash fun _ => rfl
  · subst slash
    exact isSign_escaped escapes backslash fun _ => rfl
  · exact isSign_self plain (by rwa [marks]) fun h => slash h.1
  · have hidden : Toml.isPlain c = false := by simpa using plain
    exact isSign_escaped escapes backslash (escaped?_hexDigits hidden)

/-- With escapes, every text can be written. -/
lemma codes_escapeAll (escapes : style.escapes = true) (marks : style.quote = '"')
    (le : run ≤ style.room) (text : List Char) :
    style.Codes run text (escapeAll style style.room run text) := by
  induction text generalizing run with
  | nil => exact .nil le
  | cons c text ih =>
    rw [escapeAll]
    split_ifs with quote few
    · exact quote ▸ .quote (ih few)
    · have sign : style.IsSign ['\\', c] c :=
        isSign_escaped escapes (by simp [marks]) fun rest => by rw [quote, marks]; rfl
      exact .sign le sign (ih (Nat.zero_le _))
    · exact .sign le (isSign_escape escapes marks (marks ▸ quote)) (ih (Nat.zero_le _))

/-- A run only grows. -/
lemma le_longestRun (c : Char) (run : Nat) (text : List Char) : run ≤ longestRun c run text := by
  induction text generalizing run with
  | nil => exact Nat.le_refl _
  | cons d text ih =>
    rw [longestRun]
    split_ifs
    · exact Nat.le_of_succ_le (ih (run + 1))
    · exact Nat.le_max_left ..

/-- Without escapes, a text stands for itself. -/
lemma codes_self (escapes : style.escapes = false) (marks : '\n' ≠ style.quote)
    (visible : ∀ c ∈ text, isPlain c = true ∨ c = '\n' ∧ style.manyLines = true)
    (quotes : longestRun style.quote run text ≤ style.room) : style.Codes run text text := by
  have le := (le_longestRun _ _ _).trans quotes
  induction text generalizing run with
  | nil => exact .nil le
  | cons c text ih =>
    have others := fun d hd => visible d (List.mem_cons_of_mem _ hd)
    rw [longestRun] at quotes
    split_ifs at quotes with quote
    · exact quote ▸ .quote (ih others quotes ((le_longestRun _ _ _).trans quotes))
    · have sign : style.IsSign [c] c := by
        rcases visible c (List.mem_cons_self ..) with plain | ⟨rfl, lines⟩
        · exact isSign_self plain quote (by simp [escapes])
        · exact isSign_lineFeed lines marks
      exact .sign le sign (ih others ((Nat.le_max_right ..).trans quotes) (Nat.zero_le _))

/-- A style without escapes is only taken for a text that needs none. -/
lemma styleOf_cases (text : List Char) :
    styleOf text = .basic ∨ styleOf text = .basicLines ∨
    (styleOf text = .literal ∧ text.any isHidden = false ∧ '\n' ∉ text ∧
      longestRun '\'' 0 text = 0) ∨
    (styleOf text = .literalLines ∧ text.any isHidden = false ∧ longestRun '\'' 0 text ≤ 2) := by
  unfold styleOf
  dsimp only
  split_ifs with basic literal basicLines literalLines breaks
  · exact .inl rfl
  · simp only [Bool.and_eq_true, Bool.not_eq_true', beq_iff_eq] at literal
    exact .inr (.inr (.inl ⟨rfl, literal.1.1, by simpa using literal.2, literal.1.2⟩))
  · exact .inr (.inl rfl)
  · simp only [Bool.and_eq_true, Bool.not_eq_true', decide_eq_true_eq] at literalLines
    exact .inr (.inr (.inr ⟨rfl, literalLines.1, literalLines.2⟩))
  · exact .inr (.inl rfl)
  · exact .inl rfl

/-- What is written between the quotes stands for the text. -/
lemma codes_body (text : List Char) : (styleOf text).Codes 0 text ((styleOf text).body text) := by
  have visible (shown : text.any isHidden = false) {c : Char} (hc : c ∈ text) :
      isPlain c = true ∨ c = '\n' := by
    have := List.any_eq_false.1 shown c hc
    simpa [isHidden, imp_iff_not_or] using this
  rcases styleOf_cases text with style | style | ⟨style, shown, unbroken, quotes⟩ |
    ⟨style, shown, quotes⟩
  · rw [style]
    exact codes_escapeAll rfl rfl (Nat.zero_le _) text
  · rw [style]
    exact codes_escapeAll rfl rfl (Nat.zero_le _) text
  · rw [style]
    refine codes_self rfl (by decide) (fun c hc => .inl ((visible shown hc).resolve_right ?_))
      (Nat.le_of_eq quotes)
    rintro rfl
    exact unbroken hc
  · rw [style]
    exact codes_self rfl (by decide) (fun c hc => (visible shown hc).imp_right fun h => ⟨h, rfl⟩)
      quotes

/-- On one line, what stands for a text does not start with a quote. -/
lemma Codes.head?_ne (h : style.Codes 0 text code) (line : style.manyLines = false) :
    code.head? ≠ some style.quote := by
  have none : style.room = 0 := by simp [room, line]
  cases h with
  | nil _ => simp
  | quote h => exact absurd (h.le_room.trans_eq none) (by decide)
  | sign _ read _ =>
    obtain ⟨d, others, rfl, other⟩ := read.exists_cons
    simpa using other

end Style

open Style

/-- The opening quotes tell the style. -/
lemma quoted?_fence {style : Style} (known : style ∈ [basic, literal, basicLines, literalLines])
    {cs : List Char} (apart : style.manyLines = false → ¬[style.quote, style.quote] <+: cs) :
    quoted? (style.fence ++ cs) = style.read cs := by
  simp only [List.mem_cons, List.not_mem_nil, or_false] at known
  rcases known with rfl | rfl | rfl | rfl
  · rw [quoted?.eq_def]
    split
    · rename_i same
      cases same
      exact absurd ⟨_, rfl⟩ (apart rfl)
    · rename_i same
      cases same
    · rfl
  · rw [quoted?.eq_def]
    split
    · rename_i same
      cases same
    · rename_i same
      cases same
      exact absurd ⟨_, rfl⟩ (apart rfl)
    · rfl
  · rfl
  · rfl

/-- What stands for a text is read back between the quotes of each style. -/
lemma Style.Codes.quoted? {style : Style}
    (known : style ∈ [basic, literal, basicLines, literalLines]) {text code : List Char} (h : style.Codes 0 text code) (rest : List Char) :
    quoted? (style.fence ++ style.lead text ++ code ++ style.fence ++ '\n' :: rest) =
      some (text, '\n' :: rest) := by
  have none : ∀ style ∈ [basic, literal, basicLines, literalLines],
      ¬(style.quote = '\n' ∨ style.quote = '\r') := by decide
  have marks := none style known
  have stop : ('\n' :: rest).head? ≠ some style.quote := fun same =>
    marks (.inl (Option.some.inj same).symm)
  -- an empty text on one line has only one quote behind the opening one
  have apart (line : style.manyLines = false) :
      ¬[style.quote, style.quote] <+: style.lead text ++ code ++ style.fence ++ '\n' :: rest := by
    have first := h.head?_ne line
    rw [lead, line, fence, line]
    cases code with
    | nil => simpa using fun same : style.quote = '\n' => marks (.inl same)
    | cons d others =>
      have other : style.quote ≠ d := by simpa [eq_comm] using first
      simp [other]
  have read := h.read marks stop
  simp only [List.append_assoc] at read apart ⊢
  rw [quoted?_fence known apart, read]

/-- **A text in quotes is read back**, whatever its characters are. -/
theorem quoted?_quote (s : String) (rest : List Char) :
    quoted? (quote s ++ '\n' :: rest) = some (s.toList, '\n' :: rest) := by
  have known : styleOf s.toList ∈ [basic, literal, basicLines, literalLines] := by
    rcases styleOf_cases s.toList with style | style | ⟨style, -⟩ | ⟨style, -⟩ <;> simp [style]
  exact (codes_body s.toList).quoted? known rest

end SchemaLedger.Toml
