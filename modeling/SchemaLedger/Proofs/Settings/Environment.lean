import SchemaLedger.Proofs.Settings.Entries
import SchemaLedger.Proofs.Text.Digits
import SchemaLedger.Settings.Environment

/-!
What variables of the environment say.

* `Environment.usualText`: the text of what a value stands for. It is the text that a setting has
  from a variable (`Environment.text?_setting`).
* `Environment.IsUsual`: values that are their own usual text, because they look like nothing else or
  are a truth value or an integer as it is usually written.
* `Environment.inserted_settings`: one more variable is one more entry of the layer.
-/

namespace SchemaLedger.Environment

variable {value : String} {n : Int}

/-! ### Values -/

/-- The usual text of what the value of a variable stands for. -/
def usualText (value : String) : String :=
  match value.map Char.toLower with
  | "true" => "true"
  | "false" => "false"
  | _ =>
    match integer? value, Decimal.ofText? value with
    | some n, _ => Setting.integerText n
    | none, some x => Decimal.setting.render x
    | none, none => value

/-- A value that is no word for a truth value is an integer, a number or a text. -/
lemma usualText_of_ne (yes : value.map Char.toLower ≠ "true")
    (no : value.map Char.toLower ≠ "false") :
    usualText value = match integer? value, Decimal.ofText? value with
      | some n, _ => Setting.integerText n
      | none, some x => Decimal.setting.render x
      | none, none => value := by
  rw [usualText]
  split
  · exact absurd ‹_› yes
  · exact absurd ‹_› no
  · rfl

/-- Where a text is expected, the value of a variable gives its usual text. -/
lemma text?_setting (value : String) : (setting value).text? = some (usualText value) := by
  rw [setting]
  split
  · rename_i yes
    rw [usualText, yes]
    rfl
  · rename_i no
    rw [usualText, no]
    rfl
  · rename_i yes no
    rw [usualText_of_ne yes no]
    cases integer? value with
    | some n => rfl
    | none => cases Decimal.ofText? value <;> rfl

/-- The value of a variable is no table. -/
lemma setting_ne_table (value : String) (inner : List (String × Setting)) :
    setting value ≠ .table inner := by
  unfold setting
  split
  · exact nofun
  · exact nofun
  · split <;> exact nofun

/-- A value that looks like a text and like nothing else. -/
structure IsPlain (value : String) : Prop where
  notTrue : value.map Char.toLower ≠ "true"
  notFalse : value.map Char.toLower ≠ "false"
  noInteger : integer? value = none
  noReal : Decimal.ofText? value = none

/-- An integer of 64 bits. -/
def IsLong (n : Int) : Prop :=
  -Word.limit 63 ≤ n ∧ n < Word.limit 63

/-- A value that is written as what it stands for usually is. -/
inductive IsUsual : String → Prop
  | plain {value : String} (h : IsPlain value) : IsUsual value
  | flag (b : Bool) : IsUsual (if b then "true" else "false")
  | integer {n : Int} (h : IsLong n) : IsUsual (Setting.integerText n)

/-- A plain value is read as a text. -/
lemma IsPlain.usualText (h : IsPlain value) : usualText value = value := by
  rw [usualText_of_ne h.notTrue h.notFalse, h.noInteger, h.noReal]

/-- The characters of an integer are digits, but for a sign at the start. -/
lemma isDigit_of_mem_integerText {c : Char} (h : c ∈ (Setting.integerText n).toList) :
    c = '-' ∨ c.isDigit = true := by
  rw [Setting.integerText, String.toList_ofList] at h
  split_ifs at h
  · exact (List.mem_cons.1 h).imp_right Text.isDigit_of_mem_digits
  · exact .inr (Text.isDigit_of_mem_digits h)

/-- No character of an integer is a letter in any case. -/
lemma toLower_of_mem_integerText {c : Char} (h : c ∈ (Setting.integerText n).toList) :
    c.toLower ≠ 'e' := by
  rcases isDigit_of_mem_integerText h with rfl | digit
  · decide
  · rw [Text.toLower_of_isDigit digit]
    rintro rfl
    exact absurd digit (by decide)

/-- An integer is no word for a truth value: both words have a letter in common. -/
lemma map_toLower_integerText_ne (n : Int) {word : String} (letter : 'e' ∈ word.toList) :
    (Setting.integerText n).map Char.toLower ≠ word := by
  rintro rfl
  rw [String.toList_map] at letter
  obtain ⟨c, there, lower⟩ := List.mem_map.1 letter
  exact toLower_of_mem_integerText there lower

/-- An integer is read as it was written. -/
lemma integer?_integerText (h : IsLong n) : integer? (Setting.integerText n) = some n := by
  have digits : ((Text.digits n.natAbs).isEmpty || !(Text.digits n.natAbs).all Char.isDigit) =
      false := by
    simp [Text.digits_ne_nil, List.all_eq_true.2 fun c => Text.isDigit_of_mem_digits (n := n.natAbs)]
  obtain ⟨low, high⟩ := h
  by_cases negative : n < 0
  · have sign : Decimal.sign (Setting.integerText n).toList = (true, Text.digits n.natAbs) := by
      rw [Setting.integerText, String.toList_ofList, if_pos negative]
      rfl
    rw [integer?, sign]
    simp only [digits, Text.valueOf_digits, Bool.false_eq_true, if_false, if_true]
    rw [if_pos (by omega)]
    exact congrArg some (by omega)
  · have sign : Decimal.sign (Setting.integerText n).toList = (false, Text.digits n.natAbs) := by
      rw [Setting.integerText, String.toList_ofList, if_neg negative, Decimal.sign.eq_def]
      split
      · rename_i same
        exact absurd (Text.isDigit_of_mem_digits (same ▸ List.mem_cons_self ..)) (by decide)
      · rename_i same
        exact absurd (Text.isDigit_of_mem_digits (same ▸ List.mem_cons_self ..)) (by decide)
      · rfl
    rw [integer?, sign]
    simp only [digits, Text.valueOf_digits, Bool.false_eq_true, if_false]
    rw [if_pos (by omega)]
    exact congrArg some (by omega)

lemma usualText_integerText (h : IsLong n) :
    usualText (Setting.integerText n) = Setting.integerText n := by
  rw [usualText_of_ne (map_toLower_integerText_ne n (by decide))
    (map_toLower_integerText_ne n (by decide)), integer?_integerText h]

/-- **Values in their usual form are taken verbatim.** -/
lemma IsUsual.usualText (h : IsUsual value) : usualText value = value := by
  cases h with
  | plain h => exact h.usualText
  | flag b =>
    have lower : (if b then "true" else "false").map Char.toLower =
        if b then "true" else "false" := by
      rw [← String.toList_inj, String.toList_map]
      cases b <;> decide
    rw [Environment.usualText, lower]
    cases b <;> rfl
  | integer h => exact usualText_integerText h

/-! ### Variables -/

variable {before after : Variables} {name key : String} {here here' : Setting}
  {e : String × Setting}

/-- The layer with one more variable. -/
def enter (here : Setting) (v : String × String) : Setting :=
  match key? v.1 with
  | some key => here.store key (setting v.2)
  | none => here

lemma settings_eq (environment : Variables) :
    settings environment = environment.foldl enter Setting.empty :=
  rfl

lemma enter_some (named : key? name = some key) (here : Setting) (value : String) :
    enter here (name, value) = here.store key (setting value) := by
  rw [enter, named]

/-- The entries of the layer have their keys from variables. -/
lemma exists_variable_of_mem {environment : Variables}
    (h : e ∈ (environment.foldl enter here).entries) :
    e ∈ here.entries ∨ ∃ v ∈ environment, key? v.1 = some e.1 := by
  induction environment generalizing here with
  | nil => exact .inl h
  | cons v environment ih =>
    rcases ih h with old | ⟨v', later, named⟩
    · rw [enter] at old
      split at old
      · rename_i key named
        rcases Setting.mem_storeEntry old with rfl | old
        · exact .inr ⟨v, List.mem_cons_self .., named⟩
        · exact .inl old
      · exact .inl old
    · exact .inr ⟨v', List.mem_cons_of_mem _ later, named⟩

/-- An entry stays the only difference while others are added. -/
lemma inserted_foldl_enter (h : Setting.Inserted e here.entries here'.entries)
    (others : ∀ v ∈ after, key? v.1 ≠ some e.1) :
    Setting.Inserted e (after.foldl enter here).entries (after.foldl enter here').entries := by
  induction after generalizing here here' with
  | nil => exact h
  | cons v after ih =>
    refine ih ?_ fun v' later => others v' (List.mem_cons_of_mem _ later)
    rw [enter, enter]
    split
    · rename_i key named
      refine h.storeEntry (fun same => ?_) _
      exact others v (List.mem_cons_self ..) (named.trans (congrArg some same))
    · exact h

/-- **One more variable is one more entry** if no other variable has the same key. -/
lemma inserted_settings (named : key? name = some key)
    (others : ∀ v ∈ before ++ after, key? v.1 ≠ some key) (value : String) :
    Setting.Inserted (key, setting value) (settings (before ++ after)).entries
      (settings (before ++ (name, value) :: after)).entries := by
  have new : key ∉ (before.foldl enter Setting.empty).entries.map Prod.fst := by
    rintro old
    obtain ⟨e, there, rfl⟩ := List.mem_map.1 old
    rcases exists_variable_of_mem there with nothing | ⟨v, there, same⟩
    · cases nothing
    · exact others v (List.mem_append_left _ there) same
  rw [settings_eq, settings_eq, List.foldl_append, List.foldl_append, List.foldl_cons,
    enter_some named]
  refine inserted_foldl_enter ?_ fun v later => others v (List.mem_append_right _ later)
  change Setting.Inserted _ _ (Setting.storeEntry _ _ _)
  rw [Setting.storeEntry_new new]
  exact Setting.inserted_append _ _

end SchemaLedger.Environment
