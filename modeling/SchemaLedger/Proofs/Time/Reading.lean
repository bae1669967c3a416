import SchemaLedger.Proofs.Text.Digits
import SchemaLedger.Time.Reading

/-!
A point of time is read back from its stored text.

* One lemma for each part of the text: `year?_renderYear`, `field?_padded`,
  `fraction?_renderFraction`.  Each part is told by its width or by what follows it.
* `Instant.isMark_of_mem_render`: the text has no other characters than digits and a few marks.
* `Instant.ofText?_render`: the text denotes the instant, leap seconds and signed years
  included.
-/

namespace SchemaLedger

open Text

/-- A day that exists has a month that exists. -/
lemma Date.month_le (d : Date) : d.month ≤ 12 := by
  obtain ⟨-, -, first, last⟩ := d.isDate
  by_contra late
  have none : daysInMonth d.year d.month = 0 := by
    unfold daysInMonth
    split <;> omega
  omega

lemma Date.day_le (d : Date) : d.day ≤ 31 := by
  obtain ⟨-, -, -, last⟩ := d.isDate
  refine last.trans ?_
  unfold daysInMonth
  split <;> try decide
  split <;> decide

namespace Instant.Reading

/-- A number ends where its width is used up, or where no digit follows. -/
lemma number?_append {most : Nat} {ds rest : List Char} (digits : ∀ c ∈ ds, c.isDigit = true)
    (ne : ds ≠ []) (short : ds.length ≤ most) (stop : ds.length = most ∨ NoDigit rest) :
    number? most (ds ++ rest) = some (valueOf ds, rest) := by
  have split : (ds ++ rest.take (most - ds.length)).takeWhile Char.isDigit = ds := by
    have tail : NoDigit (rest.take (most - ds.length)) := by
      rcases stop with full | stop
      · intro c hc
        simp [full] at hc
      · intro c hc
        refine stop c ?_
        rw [List.head?_take] at hc
        split at hc
        · cases hc
        · exact hc
    exact congrArg Prod.fst (spanDigits_append digits tail)
  simp only [number?, List.take_append, List.take_of_length_le short, split]
  rw [if_neg (by simpa using ne), List.drop_left]

/-- Digits are not skipped as white space. -/
lemma dropSpace_append {ds rest : List Char} (digits : ∀ c ∈ ds, c.isDigit = true)
    (ne : ds ≠ []) : dropSpace (ds ++ rest) = ds ++ rest := by
  cases ds with
  | nil => exact absurd rfl ne
  | cons d ds =>
    have := isSpace_of_isDigit (digits d (List.mem_cons_self ..))
    simp [dropSpace, this]

/-- A number in two digits. -/
lemma field?_padded {n : Nat} (h : n < 100) (rest : List Char) :
    field? 2 (padded 2 n ++ rest) = some (n, rest) := by
  have width : (padded 2 n).length = 2 := length_padded (by decide) h
  rw [field?, dropSpace_append (fun _ => isDigit_of_mem_padded) (padded_ne_nil 2 n),
    number?_append (fun _ => isDigit_of_mem_padded) (padded_ne_nil 2 n) (by omega) (.inl width),
    valueOf_padded]

/-- The character that is expected. -/
lemma mark?_cons {c : Char} (h : isSpace c = false) (rest : List Char) :
    mark? c (c :: rest) = some rest := by
  simp [mark?, dropSpace, h]

lemma noDigit_cons {c : Char} (h : c.isDigit = false) (rest : List Char) : NoDigit (c :: rest) := by
  intro d hd
  cases hd
  exact h

/-- A number of any width ends in front of a character that is no digit. -/
lemma number?_padded_run (width n : Nat) {rest : List Char} (stop : NoDigit rest) :
    number? (padded width n ++ rest).length (padded width n ++ rest) = some (n, rest) := by
  rw [number?_append (fun _ => isDigit_of_mem_padded) (padded_ne_nil width n) (by simp) (.inr stop),
    valueOf_padded]

lemma year?_plus (cs : List Char) :
    year? ('+' :: cs) = (number? cs.length cs).map fun (n, cs) => ((n : Int), cs) :=
  rfl

lemma year?_minus (cs : List Char) :
    year? ('-' :: cs) = (number? cs.length cs).map fun (n, cs) => (-(n : Int), cs) :=
  rfl

/-- The year is told by its four digits, or by its sign and the hyphen behind it. -/
lemma year?_renderYear (year : Int) (rest : List Char) :
    year? (renderYear year ++ '-' :: rest) = some (year, '-' :: rest) := by
  have stop : NoDigit ('-' :: rest) := noDigit_cons (by decide) rest
  rw [renderYear]
  split
  · rename_i four
    have digits : ∀ c ∈ padded 4 year.toNat, c.isDigit = true := fun _ => isDigit_of_mem_padded
    have width : (padded 4 year.toNat).length = 4 := length_padded (by decide) (by omega)
    have value : number? 4 (padded 4 year.toNat ++ '-' :: rest) = some (year.toNat, '-' :: rest) := by
      rw [number?_append digits (padded_ne_nil _ _) (by omega) (.inl width), valueOf_padded]
    obtain ⟨d, ds, hd⟩ := List.exists_cons_of_ne_nil (padded_ne_nil 4 year.toNat)
    have first : d.isDigit = true := digits d (by simp [hd])
    rw [year?, dropSpace_append digits (padded_ne_nil _ _)]
    split
    · rename_i sign
      rw [hd] at sign
      cases sign
      cases first
    · rename_i sign
      rw [hd] at sign
      cases sign
      cases first
    · rw [value, Option.map_some]
      exact congrArg (fun y => some (y, '-' :: rest)) (Int.toNat_of_nonneg four.1)
  · have run := number?_padded_run 4 year.natAbs stop
    split
    · rename_i pos
      rw [List.cons_append, year?_plus, run, Option.map_some]
      exact congrArg (fun y => some (y, '-' :: rest)) (Int.natAbs_of_nonneg pos)
    · rename_i neg
      rw [List.cons_append, year?_minus, run, Option.map_some]
      exact congrArg (fun y => some (y, '-' :: rest)) (show -(year.natAbs : Int) = year by omega)

/-- The fraction has as many digits as it needs. -/
lemma fraction?_renderFraction {nano : Nat} (h : nano < 1000000000) :
    fraction? (renderFraction nano ++ ['Z']) = some (nano, ['Z']) := by
  have stop : NoDigit ['Z'] := noDigit_cons (by decide) []
  have read (width n zeros : Nat) (pos : 0 < width) (most : width + zeros = 9)
      (small : n < 10 ^ width) :
      fraction? ('.' :: padded width n ++ ['Z']) = some (n * 10 ^ zeros, ['Z']) := by
    have digits : ∀ c ∈ padded width n, c.isDigit = true := fun _ => isDigit_of_mem_padded
    have length := length_padded pos small
    rw [List.cons_append, fraction?]
    simp only [spanDigits_append digits stop]
    rw [if_neg (by simpa using padded_ne_nil width n), List.take_of_length_le (by omega), length,
      valueOf_padded, show 9 - width = zeros by omega]
    rfl
  rw [renderFraction]
  split
  · rename_i zero
    rw [zero]
    rfl
  · split
    · rw [read 3 (nano / 1000000) 6 (by decide) (by decide) (by omega)]
      congr 2
      omega
    · split
      · rw [read 6 (nano / 1000) 3 (by decide) (by decide) (by omega)]
        congr 2
        omega
      · rw [read 9 nano 0 (by decide) (by decide) (by omega)]
        simp

end Instant.Reading

open Instant.Reading

/-- **A point of time is read back from its stored text.** -/
theorem Instant.ofText?_render (t : Instant) : Instant.ofText? t.render = some t := by
  obtain ⟨date, hour, minute, second, nano, hour_lt, minute_lt, second_lt, nano_lt⟩ := t
  -- the second and the fraction as they are written, where a leap second is the second 60
  obtain ⟨s, f, hs, hf, written, back⟩ : ∃ s f, s ≤ 60 ∧ f < 1000000000 ∧
      (Instant.mk date hour minute second nano hour_lt minute_lt second_lt nano_lt).render =
        renderYear date.year ++ '-' :: (padded 2 date.month ++ '-' :: (padded 2 date.day ++
          'T' :: (padded 2 hour ++ ':' :: (padded 2 minute ++ ':' :: (padded 2 s ++
            (renderFraction f ++ ['Z'])))))) ∧ leap s f = (second, nano) := by
    by_cases long : 1000000000 ≤ nano
    · refine ⟨60, nano - 1000000000, by omega, by omega, by simp [render, long], ?_⟩
      simp only [leap, if_true, Prod.mk.injEq]
      omega
    · refine ⟨second, nano, by omega, by omega, by simp [render, long], ?_⟩
      rw [leap, if_neg (by omega)]
  have month : date.month < 100 := by
    have := date.month_le
    omega
  have day : date.day < 100 := by
    have := date.day_le
    omega
  have hyphen : isSpace '-' = false := by decide
  have colon : isSpace ':' = false := by decide
  have date_eq : Date.ofParts? date.year date.month date.day = some date := dif_pos date.isDate
  have shifted : shift? date (60 * hour + minute) 0 = some (date, 60 * hour + minute) := by
    rw [shift?, if_neg (by omega), if_neg (by omega)]
    rfl
  rw [written]
  refine Option.bind_eq_some_iff.2 ⟨_, year?_renderYear _ _, ?_⟩
  refine Option.bind_eq_some_iff.2 ⟨_, mark?_cons hyphen _, ?_⟩
  refine Option.bind_eq_some_iff.2 ⟨_, field?_padded month _, ?_⟩
  refine Option.bind_eq_some_iff.2 ⟨_, mark?_cons hyphen _, ?_⟩
  refine Option.bind_eq_some_iff.2 ⟨_, field?_padded day _, ?_⟩
  refine Option.bind_eq_some_iff.2 ⟨_, rfl, ?_⟩
  refine Option.bind_eq_some_iff.2 ⟨_, field?_padded (by omega) _, ?_⟩
  refine Option.bind_eq_some_iff.2 ⟨_, mark?_cons colon _, ?_⟩
  refine Option.bind_eq_some_iff.2 ⟨_, field?_padded (by omega) _, ?_⟩
  refine Option.bind_eq_some_iff.2 ⟨_, mark?_cons colon _, ?_⟩
  refine Option.bind_eq_some_iff.2 ⟨_, field?_padded (by omega) _, ?_⟩
  refine Option.bind_eq_some_iff.2 ⟨_, fraction?_renderFraction hf, ?_⟩
  refine Option.bind_eq_some_iff.2 ⟨(0, []), rfl, ?_⟩
  refine Option.bind_eq_some_iff.2 ⟨(), rfl, ?_⟩
  refine Option.bind_eq_some_iff.2 ⟨(), if_pos ⟨hour_lt, minute_lt, hs⟩, ?_⟩
  refine Option.bind_eq_some_iff.2 ⟨date, date_eq, ?_⟩
  refine Option.bind_eq_some_iff.2 ⟨_, shifted, ?_⟩
  simp only [back]
  rw [ofParts?, dif_pos ⟨by omega, by omega, second_lt, nano_lt⟩]
  congr 2 <;> omega

/-- A character that may stand in a stored text. -/
def Instant.IsMark (c : Char) : Prop :=
  c.isDigit = true ∨ c ∈ ['+', '-', '.', ':', 'T', 'Z']

lemma Instant.isMark_of_mem_renderYear {year : Int} {c : Char} (h : c ∈ renderYear year) :
    IsMark c := by
  rw [renderYear] at h
  split at h
  · exact .inl (isDigit_of_mem_padded h)
  · rcases List.mem_cons.1 h with h | h
    · split at h <;> simp [IsMark, h]
    · exact .inl (isDigit_of_mem_padded h)

lemma Instant.isMark_of_mem_renderFraction {nano : Nat} {c : Char} (h : c ∈ renderFraction nano) :
    IsMark c := by
  rw [renderFraction] at h
  split_ifs at h
  · cases h
  all_goals
    rcases List.mem_cons.1 h with h | h
    · simp [IsMark, h]
    · exact .inl (isDigit_of_mem_padded h)

/-- What stands in a stored text. -/
lemma Instant.isMark_of_mem_render {t : Instant} {c : Char} (h : c ∈ t.render) : IsMark c := by
  have digit {width n : Nat} (h : c ∈ padded width n) : IsMark c := .inl (isDigit_of_mem_padded h)
  simp only [render, List.mem_append, List.mem_cons, List.not_mem_nil, or_false] at h
  rcases h with ((((((h | h | h) | h | h) | h | h) | h | h) | h | h) | h) | h
  · exact isMark_of_mem_renderYear h
  all_goals first
    | exact digit h
    | exact isMark_of_mem_renderFraction h
    | simp [IsMark, h]

end SchemaLedger
