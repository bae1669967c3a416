import Mathlib.Tactic
import SchemaLedger.Text.Blank
import SchemaLedger.Text.Digits

/-!
Decimal digits, written and read.

* `Text.valueOf_digits`, `Text.valueOf_padded`: the digits of a number denote it, with or
  without zeros in front.
* `Text.head?_digits`: no other number than zero starts with a zero.
* `Text.length_padded`: a number that is small enough fills exactly the given width.
* `Text.spanDigits_append`: a run of digits ends where no digit follows.
-/

namespace SchemaLedger.Text

lemma digits_ne_nil (n : Nat) : digits n ≠ [] :=
  Nat.toDigits_ne_nil

lemma isDigit_of_mem_digits {n : Nat} {c : Char} (h : c ∈ digits n) : c.isDigit = true :=
  Nat.isDigit_of_mem_toDigits (by decide) (by decide) h

/-- The digits of a number denote it. -/
lemma valueOf_digits (n : Nat) : valueOf (digits n) = n :=
  Nat.ofDigitChars_ten_toDigits

/-- Zeros in front make no difference. -/
lemma valueOf_padded (width n : Nat) : valueOf (padded width n) = n := by
  have zeros : Nat.ofDigitChars 10 (padded width n) 0 = n := by
    rw [padded, Nat.ofDigitChars_append, Nat.ofDigitChars_replicate_zero, Nat.mul_zero]
    exact valueOf_digits n
  exact zeros

lemma isDigit_of_mem_padded {width n : Nat} {c : Char} (h : c ∈ padded width n) :
    c.isDigit = true := by
  rcases List.mem_append.1 h with h | h
  · obtain ⟨-, rfl⟩ := List.mem_replicate.1 h
    rfl
  · exact isDigit_of_mem_digits h

/-- A number that is small enough fills exactly the given width. -/
lemma length_padded {width n : Nat} (pos : 0 < width) (h : n < 10 ^ width) :
    (padded width n).length = width := by
  have := (Nat.length_toDigits_le_iff (by decide) pos).2 h
  rw [padded, List.length_append, List.length_replicate]
  change width - (Nat.toDigits 10 n).length + (Nat.toDigits 10 n).length = width
  omega

lemma padded_ne_nil (width n : Nat) : padded width n ≠ [] := by
  intro h
  exact digits_ne_nil n (List.append_eq_nil_iff.1 h).2

/-- Only zero starts with a zero. -/
lemma head?_digits {n : Nat} (h : n ≠ 0) : (digits n).head? ≠ some '0' := by
  induction n using Nat.strongRecOn with
  | ind n ih =>
    rw [digits, Nat.toDigits_eq_if (by decide)]
    split
    · intro zero
      have digit : Nat.digitChar n = '0' := by simpa using zero
      have value := Nat.toNat_digitChar_sub_48_of_lt_ten (n := n) ‹_›
      rw [digit] at value
      exact h (by simpa using value.symm)
    · rw [List.head?_append_of_ne_nil _ Nat.toDigits_ne_nil]
      exact ih (n / 10) (by omega) (by omega)

/-- No digit is white space. -/
lemma isSpace_of_isDigit {c : Char} (h : c.isDigit = true) : isSpace c = false := by
  obtain ⟨low, high⟩ := Char.isDigit_iff_toNat.1 h
  simp only [Char.reduceToNat] at low high
  simp only [isSpace, Bool.or_eq_false_iff, Bool.and_eq_false_iff, decide_eq_false_iff_not,
    beq_eq_false_iff_ne]
  omega

/-- No digit has a case. -/
lemma toLower_of_isDigit {c : Char} (h : c.isDigit = true) : c.toLower = c := by
  obtain ⟨-, high⟩ := Char.isDigit_iff_toNat.1 h
  refine dif_neg ?_
  rintro ⟨above, -⟩
  have above : 'A'.toNat ≤ c.toNat := UInt32.le_iff_toNat_le.1 above
  simp only [Char.reduceToNat] at above high
  omega

/-- A text that a run of digits does not go on with. -/
def NoDigit (cs : List Char) : Prop :=
  ∀ c, cs.head? = some c → c.isDigit = false

/-- A run of digits ends where no digit follows. -/
lemma spanDigits_append {ds rest : List Char} (h : ∀ c ∈ ds, c.isDigit = true)
    (stop : NoDigit rest) : spanDigits (ds ++ rest) = (ds, rest) := by
  induction ds with
  | nil =>
    cases rest with
    | nil => rfl
    | cons c rest => simp [spanDigits, stop c rfl]
  | cons d ds ih =>
    have := ih fun c hc => h c (List.mem_cons_of_mem _ hc)
    simp only [spanDigits, Prod.mk.injEq] at this ⊢
    have hd := h d (List.mem_cons_self ..)
    simp [hd, this]

end SchemaLedger.Text
