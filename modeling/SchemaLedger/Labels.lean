/-!
Named texts that travel with a schema, sorted by name.

* `Labels.insert` keeps the order and lets the later text of a name win.
* Two collections with the same entries are equal, since the order is part of the type.
-/

namespace SchemaLedger

/-- Texts by name, in the order of the names. -/
structure Labels where
  entries : List (String × String) := []
  sorted : entries.Pairwise (fun a b => a.1 < b.1) := by decide
  deriving DecidableEq, Repr

namespace Labels

instance : Inhabited Labels := ⟨⟨[], .nil⟩⟩

/-- No texts. -/
def empty : Labels := ⟨[], .nil⟩

/-- The entries with one more text, at the place of its name. -/
def insertEntry (key value : String) : List (String × String) → List (String × String)
  | [] => [(key, value)]
  | (k, v) :: rest =>
    if key < k then (key, value) :: (k, v) :: rest
    else if k < key then (k, v) :: insertEntry key value rest
    else (key, value) :: rest

theorem mem_insertEntry {key value : String} {entries : List (String × String)}
    {e : String × String} (h : e ∈ insertEntry key value entries) :
    e = (key, value) ∨ e ∈ entries := by
  induction entries with
  | nil => simpa [insertEntry] using h
  | cons head rest ih =>
    simp only [insertEntry] at h
    split at h
    · simpa using h
    · split at h
      · rcases List.mem_cons.1 h with h | h
        · exact .inr (by simp [h])
        · exact (ih h).imp_right (List.mem_cons_of_mem _)
      · rcases List.mem_cons.1 h with h | h
        · exact .inl h
        · exact .inr (List.mem_cons_of_mem _ h)

theorem sorted_insertEntry (key value : String) {entries : List (String × String)}
    (h : entries.Pairwise (fun a b => a.1 < b.1)) :
    (insertEntry key value entries).Pairwise (fun a b => a.1 < b.1) := by
  induction entries with
  | nil => simp [insertEntry]
  | cons head rest ih =>
    obtain ⟨above, below⟩ := List.pairwise_cons.1 h
    simp only [insertEntry]
    split
    · rename_i lt
      refine List.pairwise_cons.2 ⟨fun e he => ?_, h⟩
      rcases List.mem_cons.1 he with rfl | he
      · exact lt
      · exact String.lt_trans lt (above e he)
    · rename_i notLess
      split
      · rename_i lt
        refine List.pairwise_cons.2 ⟨fun e he => ?_, ih below⟩
        rcases mem_insertEntry he with rfl | he
        · exact lt
        · exact above e he
      · rename_i notGreater
        have same : key = head.1 :=
          String.le_antisymm (String.not_lt.1 notGreater) (String.not_lt.1 notLess)
        exact List.pairwise_cons.2 ⟨fun e he => same ▸ above e he, below⟩

/-- The texts with one more, which replaces a text of the same name. -/
def insert (l : Labels) (key value : String) : Labels :=
  ⟨insertEntry key value l.entries, sorted_insertEntry key value l.sorted⟩

/-- The texts of a list, where the last text of a name wins. -/
def ofList (entries : List (String × String)) : Labels :=
  entries.foldl (fun l e => l.insert e.1 e.2) empty

end Labels

end SchemaLedger
