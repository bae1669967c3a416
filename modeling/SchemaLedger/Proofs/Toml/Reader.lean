import SchemaLedger.Proofs.Text.Digits
import SchemaLedger.Proofs.Toml.Quoted
import SchemaLedger.Toml.Reader

/-!
Lines of a settings file, written and read.

* `IsValue`: a text that is read as a value, in front of the end of its line. Words, numbers and
  quoted texts are such texts.
* `lines?_entry`, `lines?_header`: what one line adds to the draft.
-/

namespace SchemaLedger.Toml

variable {rest : List Char}

/-! ### Values -/

/-- A text that is read as a value, in front of the end of its line. -/
structure IsValue (code : List Char) (value : Setting) : Prop where
  reads : ∀ fuel room rest,
    value? (fuel + 1) (room + 1) (code ++ '\n' :: rest) = some (value, '\n' :: rest)
  starts : ∀ c, code.head? = some c → isBlank c = false

/-- A quoted text is read as the text. -/
lemma isValue_quote (s : String) : IsValue (quote s) (.text s) := by
  have opens : ∃ cs, quote s = '"' :: cs ∨ quote s = '\'' :: cs := by
    rcases Style.styleOf_cases s.toList with style | style | ⟨style, -⟩ | ⟨style, -⟩ <;>
      rw [quote, style]
    · exact ⟨_, .inl rfl⟩
    · exact ⟨_, .inl rfl⟩
    · exact ⟨_, .inr rfl⟩
    · exact ⟨_, .inr rfl⟩
  constructor
  · intro fuel room rest
    have text := quoted?_quote s rest
    obtain ⟨cs, opens | opens⟩ := opens <;>
    · rw [opens, List.cons_append] at text ⊢
      simp only [value?, text]
      simp [bind, Option.bind]
  · obtain ⟨cs, opens | opens⟩ := opens <;>
    · rw [opens]
      simp [isBlank]

/-- The words for truth values are read as these. -/
lemma isValue_flag (b : Bool) : IsValue (if b then "true" else "false").toList (.flag b) := by
  cases b
  · exact ⟨fun _ _ _ => rfl, by rintro c ⟨⟩; rfl⟩
  · exact ⟨fun _ _ _ => rfl, by rintro c ⟨⟩; rfl⟩

section Digits

variable {ds : List Char} (digits : ∀ c ∈ ds, c.isDigit = true)
include digits

/-- In a run of digits at the end of a line, a digit or the end of the line follows each digit. -/
lemma isDigit_of_drop {count : Nat} (le : count ≤ ds.length) {c : Char} {others : List Char}
    (after : (ds ++ '\n' :: rest).drop count = c :: others) : c.isDigit = true ∨ c = '\n' := by
  rw [List.drop_append_of_le_length le] at after
  cases left : ds.drop count with
  | nil =>
    rw [left] at after
    exact .inr (List.cons.inj after).1.symm
  | cons d ds' =>
    rw [left] at after
    obtain ⟨rfl, -⟩ := List.cons.inj after
    exact .inl (digits d (List.mem_of_mem_drop (left ▸ List.mem_cons_self ..)))

/-- A number of fixed length does not reach beyond the run. -/
lemma isDigit_of_fixed? {count n : Nat} {c : Char} {others : List Char}
    (fixed : fixed? count (ds ++ '\n' :: rest) = some (n, c :: others)) :
    c.isDigit = true ∨ c = '\n' := by
  rw [fixed?] at fixed
  split_ifs at fixed with all
  simp only [Option.some.injEq, Prod.mk.injEq] at fixed
  refine isDigit_of_drop digits ?_ fixed.2
  by_contra beyond
  have feed : '\n' ∈ (ds ++ '\n' :: rest).take count := by
    rw [List.take_append, List.mem_append]
    obtain ⟨more, eq⟩ : ∃ k, count - ds.length = k + 1 := ⟨count - ds.length - 1, by omega⟩
    rw [eq]
    exact .inr (List.mem_cons_self ..)
  exact absurd (List.all_eq_true.1 all.2 _ feed) (by decide)

/-- A run of digits is no time of day and no date. -/
lemma not_isMoment : isMoment (ds ++ '\n' :: rest) = false := by
  rw [isMoment]
  split
  · rename_i fixed
    exact absurd (isDigit_of_fixed? digits fixed) (by decide)
  · rename_i fixed _
    exact absurd (isDigit_of_fixed? digits fixed) (by decide)
  · rfl

/-- A run of digits is read up to the end of its line. -/
lemma moreDigits_append : moreDigits Char.isDigit (ds ++ '\n' :: rest) = (ds, '\n' :: rest) := by
  induction ds with
  | nil => cases rest <;> rfl
  | cons d ds ih =>
    have first := digits d (List.mem_cons_self ..)
    have ih := ih fun c hc => digits c (List.mem_cons_of_mem _ hc)
    -- a digit is only taken together with the character behind it
    have step {e : Char} {cs : List Char}
        (more : moreDigits Char.isDigit (e :: cs) = (ds, '\n' :: rest)) :
        moreDigits Char.isDigit (d :: e :: cs) = (d :: ds, '\n' :: rest) := by
      rw [moreDigits, if_pos first, more]
    cases ds <;> exact step ih

end Digits

section Numbers

variable {d : Char} {ds : List Char} (digits : ∀ c ∈ d :: ds, c.isDigit = true)
include digits

/-- A run of digits does not start with anything else. -/
lemma ne_of_digits {c : Char} (other : c.isDigit = false) : d ≠ c := by
  rintro rfl
  exact absurd ((digits d (List.mem_cons_self ..)).symm.trans other) (by decide)

/-- A run of digits stands for no word. -/
lemma flag?_eq_none (cs : List Char) : flag? (d :: cs) = none := by
  rw [flag?.eq_def]
  split
  · rename_i same
    exact absurd (List.cons.inj same).1 (ne_of_digits digits (by decide))
  · rename_i same
    exact absurd (List.cons.inj same).1 (ne_of_digits digits (by decide))
  · rfl

/-- A run of digits has no sign and no mark of a base. -/
lemma number?_eq_unsigned? :
    number? (d :: ds ++ '\n' :: rest) = unsigned? false (d :: ds ++ '\n' :: rest) := by
  have second {mark : Char} {cs : List Char} (h : d :: ds ++ '\n' :: rest = '0' :: mark :: cs) :
      mark.isDigit = true ∨ mark = '\n' :=
    isDigit_of_drop digits (show 1 ≤ (d :: ds).length by simp) (congrArg (List.drop 1) h)
  have sign : Decimal.sign (d :: ds ++ '\n' :: rest) = (false, d :: ds ++ '\n' :: rest) := by
    rw [Decimal.sign.eq_def]
    split
    · rename_i same
      exact absurd (List.cons.inj same).1 (ne_of_digits digits (by decide))
    · rename_i same
      exact absurd (List.cons.inj same).1 (ne_of_digits digits (by decide))
    · rfl
  rw [number?.eq_def]
  split
  · rename_i same
    exact absurd (second same) (by decide)
  · rename_i same
    exact absurd (second same) (by decide)
  · rename_i same
    exact absurd (second same) (by decide)
  · rw [sign]

/-- A run of digits without a zero in front is read as a whole number. -/
lemma unsigned?_digits (zero : ¬((d :: ds).head? = some '0' ∧ 1 < (d :: ds).length)) :
    unsigned? false (d :: ds ++ '\n' :: rest) =
      (integer? false (Text.valueOf (d :: ds))).map fun s => (s, '\n' :: rest) := by
  have first := digits d (List.mem_cons_self ..)
  have all : digits? Char.isDigit (d :: ds ++ '\n' :: rest) = some (d :: ds, '\n' :: rest) := by
    rw [List.cons_append, digits?, if_pos first,
      moreDigits_append fun c hc => digits c (List.mem_cons_of_mem _ hc)]
  rw [unsigned?.eq_def]
  split
  · rename_i same
    exact absurd (List.cons.inj same).1 (ne_of_digits digits (by decide))
  · rename_i same
    exact absurd (List.cons.inj same).1 (ne_of_digits digits (by decide))
  · simp only [all, bind, Option.bind, if_neg zero]
    cases read : integer? false (Text.valueOf (d :: ds)) <;> simp [afterWhole?, read]

/-- Digits are read as a number. -/
lemma value?_digits (fuel room : Nat) :
    value? (fuel + 1) (room + 1) (d :: ds ++ '\n' :: rest) =
      unsigned? false (d :: ds ++ '\n' :: rest) := by
  have bare : value? (fuel + 1) (room + 1) (d :: ds ++ '\n' :: rest) =
      if isMoment (d :: ds ++ '\n' :: rest) then moment? (d :: ds ++ '\n' :: rest)
      else (flag? (d :: ds ++ '\n' :: rest)).or (number? (d :: ds ++ '\n' :: rest)) := by
    have bracket := ne_of_digits digits (c := '[') (by decide)
    have brace := ne_of_digits digits (c := '{') (by decide)
    have quote := ne_of_digits digits (c := '"') (by decide)
    have apostrophe := ne_of_digits digits (c := '\'') (by decide)
    rw [value?.eq_def]
    simp only [List.cons_append]
    split <;> simp_all
  rw [bare, not_isMoment digits, if_neg Bool.false_ne_true, number?_eq_unsigned? digits,
    List.cons_append, flag?_eq_none digits, Option.none_or]

end Numbers

/-- The digits of a number that 64 bits hold are read as this number. -/
lemma isValue_digits {n : Nat} (small : n < Word.limit 63) :
    IsValue (Text.digits n) (.integer n) := by
  have digits : ∀ c ∈ Text.digits n, c.isDigit = true := fun c => Text.isDigit_of_mem_digits
  have value := Text.valueOf_digits n
  have zero : ¬((Text.digits n).head? = some '0' ∧ 1 < (Text.digits n).length) := by
    rintro ⟨head, long⟩
    have none : n = 0 := by
      by_contra other
      exact Text.head?_digits other head
    subst none
    exact absurd long (by decide)
  cases written : Text.digits n with
  | nil => exact absurd written (Text.digits_ne_nil n)
  | cons d ds =>
    rw [written] at digits value zero
    constructor
    · intro fuel room rest
      rw [value?_digits digits, unsigned?_digits digits zero, value, integer?,
        if_neg Bool.false_ne_true, if_pos small]
      rfl
    · rintro c ⟨⟩
      have blank := ne_of_digits digits (c := ' ') (by decide)
      have tab := ne_of_digits digits (c := '\t') (by decide)
      simp [isBlank, blank, tab]

/-! ### Lines -/

section Lines

variable {name code : List Char}

/-- A key that needs no quotes. -/
structure IsName (name : List Char) : Prop where
  some : name ≠ []
  bare : ∀ c ∈ name, isBare c = true

instance : Decidable (IsName name) :=
  decidable_of_iff (name.isEmpty = false ∧ name.all isBare = true)
    ⟨fun h => ⟨by simpa using h.1, List.all_eq_true.1 h.2⟩,
      fun h => ⟨by simpa using h.some, List.all_eq_true.2 h.bare⟩⟩

/-- A key does not start with a mark. -/
lemma IsName.exists_cons (h : IsName name) :
    ∃ c others, name = c :: others ∧ ∀ d, isBare d = false → c ≠ d := by
  obtain ⟨c, others, rfl⟩ := List.exists_cons_of_ne_nil h.some
  refine ⟨c, others, rfl, ?_⟩
  rintro d other rfl
  exact absurd ((h.bare c (List.mem_cons_self ..)).symm.trans other) (by decide)

/-- A key is read up to what follows it. -/
lemma key?_name (h : IsName name) {cs : List Char}
    (stop : ∀ c, cs.head? = some c → isBare c = false) (last : (dropBlank cs).head? ≠ some '.') :
    key? (name ++ cs) = some ([String.ofList name], dropBlank cs) := by
  obtain ⟨c, others, written, apart⟩ := h.exists_cons
  have word : (name ++ cs).takeWhile isBare = name := by
    rw [List.takeWhile_append_of_pos h.bare]
    cases cs with
    | nil => simp
    | cons d cs => simp [stop d rfl]
  have part : part? (name ++ cs) = some (String.ofList name, cs) := by
    rw [part?.eq_def]
    split
    · rename_i same
      rw [written] at same
      exact absurd (List.cons.inj same).1 (apart _ (by decide))
    · rename_i same
      rw [written] at same
      exact absurd (List.cons.inj same).1 (apart _ (by decide))
    · simp [word, h.some]
  have starts : dropBlank (name ++ cs) = name ++ cs := by
    have space := apart ' ' (by decide)
    have tab := apart '\t' (by decide)
    simp [written, dropBlank, isBlank, space, tab]
  rw [key?, maxDepth, parts?, starts, part]
  simp only [bind, Option.bind]
  split
  · rename_i dot
    rw [dot] at last
    exact absurd rfl last
  · rfl

/-- A line that starts with something else than a blank or a comment. -/
lemma lines?_content {fuel : Nat} {draft draft' : Draft} {c : Char} {cs : List Char}
    (visible : c ≠ ' ' ∧ c ≠ '\t' ∧ c ≠ '#' ∧ c ≠ '\n' ∧ c ≠ '\r')
    (content : content? draft (c :: cs) = some (draft', '\n' :: rest)) :
    lines? (fuel + 1) draft (c :: cs) = lines? fuel draft' rest := by
  obtain ⟨space, tab, comment, feed, carriage⟩ := visible
  have starts : dropComment (dropBlank (c :: cs)) = c :: cs := by
    have blank : isBlank c = false := by simp [isBlank, space, tab]
    rw [dropBlank, List.dropWhile_cons, blank, if_neg Bool.false_ne_true, dropComment.eq_def]
    split
    · rename_i same
      exact absurd (List.cons.inj same).1 comment
    · rfl
  have ends : endLine? ('\n' :: rest) = some rest := rfl
  have noBreak := Style.lineBreak?_cons (d := c) (by simp [feed, carriage]) cs
  simp only [lines?, starts, noBreak, content, ends, bind, Option.bind]

/-- A key and its value add one entry. -/
lemma lines?_entry (h : IsName name) {value : Setting} (reads : IsValue code value) {draft : Draft}
    {entries : Entries}
    (define : draft.entries.define? draft.header [] (String.ofList name) value = some entries)
    (fuel : Nat) (rest : List Char) :
    lines? (fuel + 1) draft (name ++ [' ', '=', ' '] ++ code ++ ['\n'] ++ rest) =
      lines? fuel { draft with entries } rest := by
  have key : key? (name ++ ' ' :: '=' :: ' ' :: (code ++ '\n' :: rest)) =
      some ([String.ofList name], '=' :: ' ' :: (code ++ '\n' :: rest)) :=
    key?_name h (by rintro c ⟨⟩; decide) (by simp [dropBlank, isBlank])
  have starts : dropBlank (' ' :: (code ++ '\n' :: rest)) = code ++ '\n' :: rest := by
    rw [dropBlank, List.dropWhile_cons, if_pos (by decide)]
    cases code with
    | nil => rfl
    | cons c code => rw [List.cons_append, List.dropWhile_cons, reads.starts c rfl]; rfl
  have entry : entry? draft (name ++ ' ' :: '=' :: ' ' :: (code ++ '\n' :: rest)) =
      some ({ draft with entries }, '\n' :: rest) := by
    have value := reads.reads (code ++ '\n' :: rest).length 78 rest
    simp only [key, entry?, splitKey?, after?, starts, maxDepth, value, define, bind, Option.bind,
      List.getLast?_singleton, Option.map_some, List.dropLast_singleton, if_true]
  obtain ⟨c, others, rfl, apart⟩ := h.exists_cons
  have content : content? draft (c :: (others ++ ' ' :: '=' :: ' ' :: (code ++ '\n' :: rest))) =
      some ({ draft with entries }, '\n' :: rest) := by
    rw [content?.eq_def]
    split
    · rename_i same
      exact absurd (List.cons.inj same).1 (apart _ (by decide))
    · exact entry
  simpa using lines?_content ⟨apart _ (by decide), apart _ (by decide), apart _ (by decide),
    apart _ (by decide), apart _ (by decide)⟩ content

/-- A header opens a table. -/
lemma lines?_header (h : IsName name) {draft : Draft} {entries : Entries}
    (opens : draft.entries.openTable? [] (String.ofList name) = some entries) (fuel : Nat)
    (rest : List Char) :
    lines? (fuel + 1) draft ('[' :: name ++ [']', '\n'] ++ rest) =
      lines? fuel ⟨entries, [String.ofList name]⟩ rest := by
  have key : key? (name ++ ']' :: '\n' :: rest) =
      some ([String.ofList name], ']' :: '\n' :: rest) :=
    key?_name h (by rintro c ⟨⟩; decide) (by simp [dropBlank, isBlank])
  have header : header? draft (name ++ ']' :: '\n' :: rest) =
      some (⟨entries, [String.ofList name]⟩, '\n' :: rest) := by
    obtain ⟨c, others, written, apart⟩ := h.exists_cons
    rw [header?.eq_def]
    split
    · rename_i same
      rw [written] at same
      exact absurd (List.cons.inj same).1 (apart _ (by decide))
    · simp only [key, splitKey?, after?, opens, bind, Option.bind, List.getLast?_singleton,
        Option.map_some, List.dropLast_singleton, if_true]
  have content : content? draft ('[' :: (name ++ ']' :: '\n' :: rest)) =
      some (⟨entries, [String.ofList name]⟩, '\n' :: rest) := header
  simpa using lines?_content (by decide) content

end Lines

/-- A file without a mark at its start is read line by line. -/
lemma read_of_lines? {s : String} {draft : Draft} {settings entries : List (String × Setting)}
    (mark : s.toList.head? ≠ some '\ufeff')
    (lines : lines? (s.toList.length + 1) {} s.toList = some draft)
    (all : settings? draft.entries = some settings)
    (table : tableSetting? settings = some (.table entries)) :
    read s = some (.table entries) := by
  rw [read]
  split
  · rename_i marked
    rw [marked] at mark
    exact absurd rfl mark
  · simp only [lines, all, table, bind, Option.bind]

end SchemaLedger.Toml
