import SchemaLedger.Proofs.Settings.Layers

/-!
What one entry of a layer changes.

* `Address.outermost?`: the entry of the outermost table to which an address leads. A value at the
  address changes this entry and no other, in a way that depends on nothing but this entry
  (`Setting.exists_enter`).
* `Setting.AgreesBeside`: two tables differ in one entry at most. They still do when the same layer
  is laid over both, even if its entries there are left out (`AgreesBeside.filter`).
* `Setting.Puts`: an entry of a layer puts a value under a key of a table. The table still holds it
  after all entries of the layer that lead elsewhere (`AgreesBeside.inserted`).
-/

namespace SchemaLedger

/-- The key in the outermost table to whose entry an address leads. -/
def Address.outermost? (address : String) : Option String :=
  match ofText address with
  | .key key :: _ => some (foldKey key)
  | _ => none

/-- Every address starts with a key. -/
lemma Address.exists_ofText (address : String) : ∃ key rest, ofText address = .key key :: rest := by
  unfold ofText
  dsimp only
  split
  · split_ifs
    · exact ⟨_, _, rfl⟩
    · exact ⟨_, _, rfl⟩
  · exact ⟨_, _, rfl⟩

lemma lookup_cons_ite {α : Type} (key other : String) (value : α) (entries : List (String × α)) :
    ((key, value) :: entries).lookup other =
      if other = key then some value else entries.lookup other := by
  rw [List.lookup_cons]
  by_cases same : other = key
  · rw [if_pos same, beq_iff_eq.2 same]
  · rw [if_neg same, beq_eq_false_iff_ne.2 same]

namespace Setting

variable {s s' r : Setting} {group key : String} {value : Setting}
  {entries entries' : List (String × Setting)}

/-! ### Entries of a table -/

lemma lookup_storeEntry (key other : String) (value : Setting) (entries : List (String × Setting)) :
    (storeEntry key value entries).lookup other =
      if other = key then some value else entries.lookup other := by
  induction entries with
  | nil => exact lookup_cons_ite key other value []
  | cons e entries ih =>
    obtain ⟨k, v⟩ := e
    rw [storeEntry]
    by_cases here : k = key
    · subst here
      rw [if_pos rfl, lookup_cons_ite, lookup_cons_ite]
      split_ifs <;> rfl
    · rw [if_neg here, lookup_cons_ite, lookup_cons_ite, ih]
      by_cases same : other = k
      · rw [if_pos same, if_pos same, if_neg fun other' => here (same.symm.trans other')]
      · rw [if_neg same, if_neg same]

lemma mem_storeEntry {x : String × Setting} (h : x ∈ storeEntry key value entries) :
    x = (key, value) ∨ x ∈ entries := by
  induction entries with
  | nil => exact .inl (List.mem_singleton.1 h)
  | cons e entries ih =>
    obtain ⟨k, v⟩ := e
    rw [storeEntry] at h
    split_ifs at h
    · exact (List.mem_cons.1 h).imp_right (List.mem_cons_of_mem _)
    · rcases List.mem_cons.1 h with rfl | later
      · exact .inr (List.mem_cons_self ..)
      · exact (ih later).imp_right (List.mem_cons_of_mem _)

lemma lookup?_store (s : Setting) (key other : String) (value : Setting) :
    (s.store key value).lookup? other = if other = key then some value else s.lookup? other :=
  lookup_storeEntry key other value s.entries

/-- An assignment changes the entry of its key, from what it was. -/
lemma exists_assign (key : String) (value : Setting) : ∃ change : Option Setting → Setting,
    ∀ here : Setting, here.assign key value =
      here.store (foldKey key) (change (here.lookup? (foldKey key))) := by
  by_cases plain : ∀ inner, value ≠ .table inner
  · exact ⟨fun _ => value, fun here => assign_value plain⟩
  · obtain ⟨inner, rfl⟩ : ∃ inner, value = .table inner := by simpa using plain
    exact ⟨fun old => assignAll (old.getD empty) inner, fun here => by rw [assign]⟩

/-- The table in which the entry of a layer is entered. -/
def enter? (here : Setting) (e : String × Setting) : Option Setting :=
  place? e.2 (Address.ofText e.1) here

lemma overlay?_eq (here upper : Setting) : here.overlay? upper = upper.entries.foldlM enter? here :=
  rfl

/-- An entry of a layer changes the entry to which its address leads, from what it was. -/
lemma exists_enter (e : String × Setting) : ∃ key, Address.outermost? e.1 = some key ∧
    ∃ change : Option Setting → Option Setting, ∀ here : Setting,
      here.enter? e = (change (here.lookup? key)).map (here.store key) := by
  obtain ⟨key, rest, steps⟩ := Address.exists_ofText e.1
  refine ⟨foldKey key, by rw [Address.outermost?, steps], ?_⟩
  cases rest with
  | nil =>
    obtain ⟨change, assigned⟩ := exists_assign key e.2
    refine ⟨fun old => some (change old), fun here => ?_⟩
    rw [enter?, steps, place?, assigned, Option.map_some]
  | cons step rest =>
    refine ⟨fun old => place? e.2 (step :: rest) (old.getD .nothing), fun here => ?_⟩
    rw [enter?, steps, place?]
    · change Option.bind _ _ = Option.map _ (place? _ _ _)
      cases place? e.2 (step :: rest) ((here.lookup? (foldKey key)).getD .nothing) <;> rfl
    · simp

/-- A layer is laid over a table, and the result is a table. -/
lemma isTable_overlay? {here upper : Setting} (table : ∃ entries, here = .table entries)
    (laid : here.overlay? upper = some r) : ∃ entries, r = .table entries := by
  rw [overlay?_eq] at laid
  generalize upper.entries = entries at laid
  induction entries generalizing here with
  | nil =>
    cases laid
    exact table
  | cons e entries ih =>
    rw [List.foldlM_cons] at laid
    obtain ⟨next, entered, rest⟩ := Option.bind_eq_some_iff.1 laid
    obtain ⟨key, -, change, changes⟩ := exists_enter e
    rw [changes] at entered
    obtain ⟨value, -, rfl⟩ := Option.map_eq_some_iff.1 entered
    exact ih ⟨_, rfl⟩ rest

/-! ### Tables that differ in one entry -/

/-- Two tables that differ in the entry of one key at most. -/
structure AgreesBeside (group : String) (s s' : Setting) : Prop where
  left : ∃ entries, s = .table entries
  right : ∃ entries, s' = .table entries
  others : ∀ key, key ≠ group → s.lookup? key = s'.lookup? key

namespace AgreesBeside

protected lemma refl (table : ∃ entries, s = .table entries) : AgreesBeside group s s :=
  ⟨table, table, fun _ _ => rfl⟩

/-- The entry of the key changes in the first table. -/
lemma store_left (h : AgreesBeside group s s') (value : Setting) :
    AgreesBeside group (s.store group value) s' :=
  ⟨⟨_, rfl⟩, h.right, fun key other => by rw [lookup?_store, if_neg other, h.others key other]⟩

/-- The entry of the key changes in the second table. -/
lemma store_right (h : AgreesBeside group s s') (value : Setting) :
    AgreesBeside group s (s'.store group value) :=
  ⟨h.left, ⟨_, rfl⟩, fun key other => by rw [lookup?_store, if_neg other, h.others key other]⟩

/-- Another entry changes in both. -/
lemma store_both (h : AgreesBeside group s s') (key : String) (value : Setting) :
    AgreesBeside group (s.store key value) (s'.store key value) :=
  ⟨⟨_, rfl⟩, ⟨_, rfl⟩, fun other beside => by
    rw [lookup?_store, lookup?_store, h.others other beside]⟩

variable {e : String × Setting}

/-- The same entry of a layer is entered elsewhere in both tables. -/
lemma enter (h : AgreesBeside group s s') (elsewhere : Address.outermost? e.1 ≠ some group)
    (entered : s.enter? e = some r) :
    ∃ r', s'.enter? e = some r' ∧ AgreesBeside group r r' ∧
      r'.lookup? group = s'.lookup? group := by
  obtain ⟨key, leads, change, changes⟩ := exists_enter e
  have other : key ≠ group := fun same => elsewhere (leads.trans (congrArg some same))
  rw [changes] at entered
  obtain ⟨value, new, rfl⟩ := Option.map_eq_some_iff.1 entered
  refine ⟨s'.store key value, ?_, h.store_both key value, ?_⟩
  · rw [changes, ← h.others key other, new, Option.map_some]
  · rw [lookup?_store, if_neg other.symm]

/-- An entry that leads to the key is entered in the first table only. -/
lemma enter_left (h : AgreesBeside group s s') (leads : Address.outermost? e.1 = some group)
    (entered : s.enter? e = some r) : AgreesBeside group r s' := by
  obtain ⟨key, same, change, changes⟩ := exists_enter e
  obtain rfl : key = group := Option.some.inj (same.symm.trans leads)
  rw [changes] at entered
  obtain ⟨value, -, rfl⟩ := Option.map_eq_some_iff.1 entered
  exact h.store_left value

/-- **A layer is laid over the first table, and over the second one without its entries that lead
to the key.** By induction on the entries: those that are left out change nothing else. -/
lemma filter (h : AgreesBeside group s s') (laid : entries.foldlM enter? s = some r) :
    ∃ r', (entries.filter fun e => Address.outermost? e.1 != some group).foldlM enter? s' =
        some r' ∧ AgreesBeside group r r' ∧ r'.lookup? group = s'.lookup? group := by
  induction entries generalizing s s' with
  | nil =>
    cases laid
    exact ⟨s', rfl, h, rfl⟩
  | cons e entries ih =>
    rw [List.foldlM_cons] at laid
    obtain ⟨next, entered, rest⟩ := Option.bind_eq_some_iff.1 laid
    by_cases leads : Address.outermost? e.1 = some group
    · rw [List.filter_cons_of_neg (by simp [leads])]
      exact ih (h.enter_left leads entered) rest
    · obtain ⟨next', entered', agrees, same⟩ := h.enter leads entered
      obtain ⟨r', rest', agrees', same'⟩ := ih agrees rest
      refine ⟨r', ?_, agrees', same'.trans same⟩
      rw [List.filter_cons_of_pos (by simp [leads]), List.foldlM_cons, entered']
      exact rest'

/-- The layer may as well be laid over both tables if none of its entries leads to the key. -/
lemma overlay (h : AgreesBeside group s s')
    (elsewhere : ∀ e ∈ entries, Address.outermost? e.1 ≠ some group)
    (laid : entries.foldlM enter? s = some r) :
    ∃ r', entries.foldlM enter? s' = some r' ∧ AgreesBeside group r r' ∧
      r'.lookup? group = s'.lookup? group := by
  have all : (entries.filter fun e => Address.outermost? e.1 != some group) = entries :=
    List.filter_eq_self.2 fun e he => bne_iff_ne.2 (elsewhere e he)
  have filtered := h.filter laid
  rwa [all] at filtered

end AgreesBeside

/-! ### Values under a key of a table -/

/-- Under a key of a table within the table there is a value. -/
def Holds (group key : String) (value s : Setting) : Prop :=
  ∃ inner, s.lookup? group = some (.table inner) ∧ inner.lookup key = some value

/-- The entry of a layer puts a value there. -/
def Puts (group key : String) (value : Setting) (e : String × Setting) : Prop :=
  ∀ here : Setting, ∃ inner, here.enter? e = some (here.store group (.table inner)) ∧
    inner.lookup key = some value

/-- A value whose address leads through the table. -/
lemma puts_address {address : String} (steps : Address.ofText address = [.key group, .key key])
    (lower : foldKey group = group) (lower' : foldKey key = key)
    (plain : ∀ inner, value ≠ .table inner) : Puts group key value (address, value) := by
  intro here
  refine ⟨storeEntry key value ((here.lookup? group).getD .nothing).entries, ?_, ?_⟩
  · rw [enter?, steps, place?, place?, assign_value plain, lower, lower']
    · rfl
    · simp
  · rw [lookup_storeEntry, if_pos rfl]

/-- A table with nothing but the value. -/
lemma puts_table (steps : Address.ofText group = [.key group]) (lower : foldKey group = group)
    (lower' : foldKey key = key) (plain : ∀ inner, value ≠ .table inner) :
    Puts group key value (group, .table [(key, value)]) := by
  intro here
  refine ⟨storeEntry key value ((here.lookup? group).getD empty).entries, ?_, ?_⟩
  · rw [enter?, steps, place?, assign, assignAll, assignAll, assign_value plain, lower, lower']
    rfl
  · rw [lookup_storeEntry, if_pos rfl]

/-- The entries of a layer, without and with one entry at any place. -/
inductive Inserted (e : String × Setting) :
    List (String × Setting) → List (String × Setting) → Prop
  | here (entries : List (String × Setting)) : Inserted e entries (e :: entries)
  | later (x : String × Setting) {entries entries' : List (String × Setting)}
    (h : Inserted e entries entries') : Inserted e (x :: entries) (x :: entries')

lemma inserted_append (e : String × Setting) (entries : List (String × Setting)) :
    Inserted e entries (entries ++ [e]) := by
  induction entries with
  | nil => exact .here []
  | cons x entries ih => exact .later x ih

/-- **A layer is laid over the first table, and over the second one with another entry**, which puts
a value under a key. If no other entry leads there, the value is still there in the end. -/
lemma AgreesBeside.inserted {e : String × Setting} (h : AgreesBeside group s s')
    (inserted : Inserted e entries entries') (puts : Puts group key value e)
    (elsewhere : ∀ x ∈ entries, Address.outermost? x.1 ≠ some group)
    (laid : entries.foldlM enter? s = some r) :
    ∃ r', entries'.foldlM enter? s' = some r' ∧ AgreesBeside group r r' ∧
      Holds group key value r' := by
  induction inserted generalizing s s' with
  | here entries =>
    obtain ⟨inner, entered, there⟩ := puts s'
    obtain ⟨r', rest, agrees, same⟩ := (h.store_right (.table inner)).overlay elsewhere laid
    rw [lookup?_store, if_pos rfl] at same
    refine ⟨r', ?_, agrees, inner, same, there⟩
    rw [List.foldlM_cons, entered]
    exact rest
  | later x inserted ih =>
    rw [List.foldlM_cons] at laid
    obtain ⟨next, entered, rest⟩ := Option.bind_eq_some_iff.1 laid
    obtain ⟨next', entered', agrees, -⟩ := h.enter (elsewhere x (List.mem_cons_self ..)) entered
    obtain ⟨r', rest', agrees', holds⟩ :=
      ih agrees (fun y hy => elsewhere y (List.mem_cons_of_mem _ hy)) rest
    refine ⟨r', ?_, agrees', holds⟩
    rw [List.foldlM_cons, entered']
    exact rest'

/-- A value that one entry puts under a key stays there while other entries are entered in another
key. -/
lemma Inserted.storeEntry {e : String × Setting} (h : Inserted e entries entries') {key : String}
    (other : key ≠ e.1) (value : Setting) :
    Inserted e (storeEntry key value entries) (storeEntry key value entries') := by
  induction h with
  | here entries =>
    obtain ⟨k, v⟩ := e
    have next : Setting.storeEntry key value ((k, v) :: entries) =
        (k, v) :: Setting.storeEntry key value entries := by
      rw [Setting.storeEntry, if_neg other.symm]
    rw [next]
    exact .here _
  | later x inserted ih =>
    obtain ⟨k, v⟩ := x
    rw [Setting.storeEntry, Setting.storeEntry]
    split_ifs
    · exact .later _ inserted
    · exact .later _ ih

end Setting

end SchemaLedger
