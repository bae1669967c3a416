import Mathlib.Tactic
import SchemaLedger.Json.Quoted

/-!
Texts in quotes, written and read.

* `Quoted.next_escape`: an escaped character is read back as this one character.
* `Quoted.decode_flatMap_escape`: a quoted text is read back, whatever follows the closing quote.
* `Quoted.encode_of_isPlain`: a text that needs no escapes stands between the quotes as it is.
-/

namespace SchemaLedger.Json.Quoted

/-- A hexadecimal digit is read back. -/
lemma hexValue?_hexDigit {n : Nat} (h : n < 16) : Text.hexValue? (Text.hexDigit n) = some n := by
  revert n
  decide

/-- A control character is read back from its four digits. -/
lemma unit_hexDigits {n : Nat} (h : n < 0x20) (rest : List Char) :
    unit ('0' :: '0' :: Text.hexDigit (n / 16) :: Text.hexDigit (n % 16) :: rest) =
      .ok (n, rest) := by
  simp only [unit, hexValue?_hexDigit (show n / 16 < 16 by omega),
    hexValue?_hexDigit (show n % 16 < 16 by omega), show Text.hexValue? '0' = some 0 from rfl]
  congr 2
  omega

/-- A character is escaped by a letter or by its number, or it stands for itself. -/
lemma escape_cases (c : Char) :
    (∃ letter, letter ≠ 'u' ∧ named? letter = some c ∧ escape c = ['\\', letter]) ∨
    (c.toNat < 0x20 ∧ escape c =
      ['\\', 'u', '0', '0', Text.hexDigit (c.toNat / 16), Text.hexDigit (c.toNat % 16)]) ∨
    (c ≠ '"' ∧ c ≠ '\\' ∧ 0x20 ≤ c.toNat ∧ escape c = [c]) := by
  unfold escape
  split_ifs with quote backslash back feed line return_ tab control
  · exact .inl ⟨'"', by decide, by rw [quote]; rfl, rfl⟩
  · exact .inl ⟨'\\', by decide, by rw [backslash]; rfl, rfl⟩
  · exact .inl ⟨'b', by decide, by rw [back]; rfl, rfl⟩
  · exact .inl ⟨'f', by decide, by rw [feed]; rfl, rfl⟩
  · exact .inl ⟨'n', by decide, by rw [line]; rfl, rfl⟩
  · exact .inl ⟨'r', by decide, by rw [return_]; rfl, rfl⟩
  · exact .inl ⟨'t', by decide, by rw [tab]; rfl, rfl⟩
  · exact .inr (.inl ⟨control, rfl⟩)
  · exact .inr (.inr ⟨quote, backslash, Nat.le_of_not_lt control, rfl⟩)

/-- What a letter after a backslash stands for. -/
lemma escaped_letter {letter c : Char} (h : letter ≠ 'u') (named : named? letter = some c)
    (rest : List Char) : escaped (letter :: rest) = .ok (c, rest) := by
  rw [escaped.eq_def]
  split <;> simp_all

/-- A character that stands for itself. -/
lemma next_of_plain {c : Char} (quote : c ≠ '"') (backslash : c ≠ '\\') (visible : 0x20 ≤ c.toNat)
    (rest : List Char) : next (c :: rest) = .ok (some c, rest) := by
  rw [next.eq_def]
  split
  · rename_i nil
    cases nil
  · rename_i cons
    cases cons
    exact absurd rfl quote
  · rename_i cons
    cases cons
    exact absurd rfl backslash
  · rename_i cons
    cases cons
    rw [if_neg (by omega)]

/-- An escaped character is read back as this one character. -/
lemma next_escape (c : Char) (rest : List Char) : next (escape c ++ rest) = .ok (some c, rest) := by
  rcases escape_cases c with ⟨letter, other, named, written⟩ | ⟨control, written⟩ |
    ⟨quote, backslash, visible, written⟩
  · rw [written, List.cons_append, List.singleton_append, next, escaped_letter other named]
    rfl
  · have value : character c.toNat rest = .ok (c, rest) := by
      unfold character
      rw [if_neg (by omega), if_pos (by omega), Char.ofNat_toNat]
    simp only [written, List.cons_append, List.nil_append, next, escaped, unit_hexDigits control,
      bind, Except.bind, value]
  · rw [written, List.singleton_append, next_of_plain quote backslash visible]

/-- The characters up to the closing quote. -/
lemma characters_flatMap_escape (cs rest : List Char) {fuel : Nat} (enough : cs.length < fuel) :
    characters fuel (cs.flatMap escape ++ '"' :: rest) = .ok (cs, rest) := by
  induction cs generalizing fuel with
  | nil =>
    obtain ⟨fuel, rfl⟩ := Nat.exists_eq_succ_of_ne_zero (Nat.ne_of_gt enough)
    rfl
  | cons c cs ih =>
    obtain ⟨fuel, rfl⟩ := Nat.exists_eq_succ_of_ne_zero (Nat.ne_of_gt (Nat.zero_lt_of_lt enough))
    rw [List.flatMap_cons, List.append_assoc, characters, next_escape]
    have := ih (Nat.lt_of_succ_lt_succ enough)
    simp only [bind, Except.bind, this]

/-- No escape is empty. -/
lemma length_le_flatMap_escape (cs : List Char) : cs.length ≤ (cs.flatMap escape).length := by
  induction cs with
  | nil => exact Nat.le_refl 0
  | cons c cs ih =>
    have some : 0 < (escape c).length := by
      rcases escape_cases c with ⟨_, -, -, written⟩ | ⟨-, written⟩ | ⟨-, -, -, written⟩ <;>
        simp [written]
    rw [List.flatMap_cons, List.length_append, List.length_cons]
    omega

/-- **A quoted text is read back**, whatever follows it. -/
theorem decode_flatMap_escape (s : String) (rest : List Char) :
    decode (s.toList.flatMap escape ++ '"' :: rest) = .ok (s, rest) := by
  have length := length_le_flatMap_escape s.toList
  have enough : s.toList.length < (s.toList.flatMap escape ++ '"' :: rest).length + 1 := by
    rw [List.length_append, List.length_cons]
    omega
  rw [decode, characters_flatMap_escape _ _ enough]
  simp [bind, Except.bind]

/-- A character that needs no escape. -/
def IsPlain (c : Char) : Prop :=
  c ≠ '"' ∧ c ≠ '\\' ∧ 0x20 ≤ c.toNat

lemma escape_of_isPlain {c : Char} (h : IsPlain c) : escape c = [c] := by
  obtain ⟨quote, backslash, visible⟩ := h
  have above {d : Char} (low : d.toNat < 0x20) : c ≠ d := by
    rintro rfl
    omega
  rw [escape, if_neg quote, if_neg backslash, if_neg (above (by decide)), if_neg (above (by decide)),
    if_neg (above (by decide)), if_neg (above (by decide)), if_neg (above (by decide)),
    if_neg (by omega)]

/-- A text that needs no escapes stands between the quotes as it is. -/
lemma encode_of_isPlain {cs : List Char} (plain : ∀ c ∈ cs, IsPlain c) :
    encode (String.ofList cs) = '"' :: cs ++ ['"'] := by
  have same : cs.flatMap escape = cs := by
    induction cs with
    | nil => rfl
    | cons c cs ih =>
      rw [List.flatMap_cons, ih fun d hd => plain d (List.mem_cons_of_mem _ hd),
        escape_of_isPlain (plain c (List.mem_cons_self ..)), List.singleton_append]
  rw [encode, String.toList_ofList, same]

end SchemaLedger.Json.Quoted
