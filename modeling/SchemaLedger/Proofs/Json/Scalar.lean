import SchemaLedger.Json.Reader
import SchemaLedger.Json.Writer
import SchemaLedger.Proofs.Json.Quoted
import SchemaLedger.Proofs.Text.Digits
import SchemaLedger.Proofs.Time.Reading

/-!
Values without parts, written and read.

* `IsAfterValue`, `IsBlanks`: what follows a value in a text that was written, and what stands
  in front of it.
* `readText_encode`, `readFlag_word`, `readNumber_digits`, `readInstant_render`,
  `readChoice_encode`: each value is read back, and reading stops behind it.
-/

namespace SchemaLedger.Json

/-! ### Around a value -/

/-- What follows a value: nothing, or the end of its line, or a comma or a closing bracket. -/
def IsAfterValue (rest : List Char) : Prop :=
  ∀ c, rest.head? = some c → c = ',' ∨ c = ']' ∨ c = '}' ∨ c = '\n'

/-- No digit follows a value. -/
lemma IsAfterValue.noDigit {rest : List Char} (h : IsAfterValue rest) : Text.NoDigit rest := by
  intro c hc
  rcases h c hc with rfl | rfl | rfl | rfl <;> rfl

/-- Nothing but white space. -/
def IsBlanks (pre : List Char) : Prop :=
  ∀ c ∈ pre, isBlank c = true

/-- White space ends where a value starts. -/
lemma dropBlank_append {pre cs : List Char} {c : Char} (h : IsBlanks pre) (hc : isBlank c = false) :
    dropBlank (pre ++ c :: cs) = c :: cs := by
  induction pre with
  | nil => simp [dropBlank, hc]
  | cons b pre ih =>
    have hb := h b (List.mem_cons_self ..)
    have := ih fun d hd => h d (List.mem_cons_of_mem _ hd)
    rw [dropBlank] at this ⊢
    rw [List.cons_append, List.dropWhile_cons, if_pos hb, this]

/-- No digit is white space. -/
lemma isBlank_of_isDigit {c : Char} (h : c.isDigit = true) : isBlank c = false := by
  obtain ⟨low, high⟩ := Char.isDigit_iff_toNat.1 h
  have apart {d : Char} (outside : d.toNat < 48) : (c == d) = false := by
    refine beq_eq_false_iff_ne.2 ?_
    rintro rfl
    simp only [Char.reduceToNat] at low
    omega
  rw [isBlank, apart (by decide), apart (by decide), apart (by decide), apart (by decide)]
  rfl

/-- A fixed word is passed over. -/
lemma word_append (letters rest : List Char) : word letters (letters ++ rest) = .ok rest := by
  induction letters with
  | nil => rfl
  | cons c letters ih => rw [List.cons_append, word, if_pos rfl, ih]

/-! ### Texts, truth values and points of time -/

lemma encode_append (s : String) (rest : List Char) : Quoted.encode s ++ rest =
    '"' :: (s.toList.flatMap Quoted.escape ++ '"' :: rest) := by
  simp [Quoted.encode]

/-- A text is read back. -/
lemma readText_encode {pre : List Char} (blanks : IsBlanks pre) (expected s : String)
    (rest : List Char) : readText expected (pre ++ (Quoted.encode s ++ rest)) = .ok (s, rest) := by
  rw [readText, encode_append, dropBlank_append blanks (by decide)]
  exact Quoted.decode_flatMap_escape s rest

/-- A truth value is read back. -/
lemma readFlag_word {pre : List Char} (blanks : IsBlanks pre) (b : Bool) (rest : List Char) :
    readFlag (pre ++ ((if b then ['t', 'r', 'u', 'e'] else ['f', 'a', 'l', 's', 'e']) ++ rest)) =
      .ok (b, rest) := by
  cases b with
  | true =>
    rw [readFlag, if_pos rfl, List.cons_append, dropBlank_append blanks (by decide)]
    exact congrArg (· >>= fun cs => .ok (true, cs)) (word_append ['r', 'u', 'e'] rest)
  | false =>
    rw [readFlag, if_neg Bool.false_ne_true, List.cons_append,
      dropBlank_append blanks (by decide)]
    exact congrArg (· >>= fun cs => .ok (false, cs)) (word_append ['a', 'l', 's', 'e'] rest)

/-- A stored point of time needs no escapes. -/
lemma isPlain_of_mem_render {t : Instant} {c : Char} (h : c ∈ t.render) : Quoted.IsPlain c := by
  rcases Instant.isMark_of_mem_render h with digit | other
  · obtain ⟨low, high⟩ := Char.isDigit_iff_toNat.1 digit
    simp only [Char.reduceToNat] at low high
    refine ⟨?_, ?_, by omega⟩ <;>
    · rintro rfl
      simp only [Char.reduceToNat] at low high
      omega
  · simp only [List.mem_cons, List.not_mem_nil, or_false] at other
    rcases other with rfl | rfl | rfl | rfl | rfl | rfl <;>
      exact ⟨by decide, by decide, by decide⟩

/-- A point of time is read back. -/
lemma readInstant_render {pre : List Char} (blanks : IsBlanks pre) (t : Instant)
    (rest : List Char) : readInstant (pre ++ ('"' :: t.render ++ ['"'] ++ rest)) = .ok (t, rest) := by
  rw [← Quoted.encode_of_isPlain fun c => isPlain_of_mem_render, readInstant,
    readText_encode blanks]
  simp [bind, Except.bind, Instant.ofText?_render]

/-- One of several values is read back from its name. -/
lemma readChoice_encode {α : Type} {label : α → String} {all : List α}
    (label_find : ∀ a, all.find? (fun b => label b == label a) = some a) {pre : List Char}
    (blanks : IsBlanks pre) (a : α) (rest : List Char) :
    readChoice label all (pre ++ (Quoted.encode (label a) ++ rest)) = .ok (a, rest) := by
  rw [encode_append, readChoice, dropBlank_append blanks (by decide)]
  change (Quoted.decode _ >>= _) = _
  rw [Quoted.decode_flatMap_escape]
  simp [bind, Except.bind, named, label_find a]

/-! ### Numbers -/

namespace Number

/-- The number that digits denote behind those of another number. -/
abbrev extend (n : Nat) (ds : List Char) : Nat :=
  ds.foldl (fun n c => 10 * n + Text.digitValue c) n

/-- More digits make no number smaller. -/
lemma le_extend (n : Nat) (ds : List Char) : n ≤ extend n ds := by
  induction ds generalizing n with
  | nil => exact Nat.le_refl n
  | cons d ds ih => exact le_trans (by omega) (ih (10 * n + Text.digitValue d))

/-- Digits are taken in as long as their number is one of 64 bits. -/
lemma accumulate_of_le {ds : List Char} {n : Nat} (h : extend n ds ≤ wordMax) :
    accumulate n ds = (extend n ds, []) := by
  induction ds generalizing n with
  | nil => rfl
  | cons d ds ih =>
    have first : 10 * n + Text.digitValue d ≤ wordMax := (le_extend _ ds).trans h
    rw [accumulate, if_neg (Nat.not_lt.2 first)]
    exact ih h

/-- Digits that are followed by no more of the number. -/
lemma afterDigits_of_isAfterValue {ds rest : List Char} (h : extend 0 ds ≤ wordMax)
    (after : IsAfterValue rest) :
    afterDigits false ds rest = .ok (.integer (extend 0 ds : Nat), rest) := by
  rw [afterDigits, accumulate_of_le h]
  dsimp only
  split
  · have := after '.' rfl
    simp at this
  · split
    · have := after 'e' rfl
      simp at this
    · have := after 'E' rfl
      simp at this
    · rfl

/-- An integer of 64 bits is read back from its digits. -/
lemma unsigned_digits {n : Nat} (h : n ≤ wordMax) {rest : List Char}
    (after : IsAfterValue rest) :
    unsigned false (Text.digits n ++ rest) = .ok (.integer n, rest) := by
  have value : extend 0 (Text.digits n) = n := Text.valueOf_digits n
  have read : afterDigits false (Text.digits n) rest = .ok (.integer n, rest) := by
    rw [afterDigits_of_isAfterValue (by rwa [value]) after, value]
  rw [unsigned, Text.spanDigits_append (fun _ => Text.isDigit_of_mem_digits) after.noDigit]
  dsimp only
  split
  · rename_i none
    exact absurd none (Text.digits_ne_nil n)
  · rename_i d ds zero
    by_cases hn : n = 0
    · rw [hn] at zero
      cases zero
    · exact absurd (by rw [zero]; rfl) (Text.head?_digits hn)
  · exact read

end Number

/-- A number within its limit is read back from its digits. -/
lemma readNumber_digits {pre : List Char} (blanks : IsBlanks pre) {n limit : Nat}
    (small : n < limit) (word : limit ≤ Word.limit 64) (expected : String) {rest : List Char}
    (after : IsAfterValue rest) :
    readNumber limit expected (pre ++ (Text.digits n ++ rest)) = .ok (n, rest) := by
  obtain ⟨d, ds, hd⟩ := List.exists_cons_of_ne_nil (Text.digits_ne_nil n)
  have digit : d.isDigit = true := Text.isDigit_of_mem_digits (by rw [hd]; exact List.mem_cons_self ..)
  have value := Number.unsigned_digits (Nat.le_pred_of_lt (small.trans_le word)) after
  have positive : Number.read (d :: (ds ++ rest)) = .ok (.integer n, rest) := by
    rw [Number.read.eq_def]
    split
    · rename_i minus
      cases minus
      cases digit
    · rwa [hd] at value
  rw [hd, List.cons_append, readNumber, dropBlank_append blanks (isBlank_of_isDigit digit)]
  dsimp only
  rw [if_pos (.inr digit), positive]
  simp [bind, Except.bind, small]

end SchemaLedger.Json
