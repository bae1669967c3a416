/-!
Finite maps from texts.

* `Dictionary.get?` is the view of a dictionary; `get?_insert` and `get?_erase` say what the
  operations do to it.
* `Dictionary.HasUniqueKeys` holds of everything built by the operations.
-/

namespace SchemaLedger

/-- A finite map from texts, in the order in which the values came in. -/
structure Dictionary (α : Type) where
  entries : List (String × α) := []
  deriving DecidableEq, Repr

namespace Dictionary

variable {α : Type}

/-- The empty dictionary. -/
def empty : Dictionary α := ⟨[]⟩

/-- The value of a key. -/
def get? (d : Dictionary α) (key : String) : Option α :=
  d.entries.lookup key

/-- The key has a value. -/
def contains (d : Dictionary α) (key : String) : Bool :=
  (d.get? key).isSome

/-- The dictionary in which the key has no value. -/
def erase (d : Dictionary α) (key : String) : Dictionary α :=
  ⟨d.entries.filter fun e => e.1 != key⟩

/-- The dictionary in which the key has the given value. -/
def insert (d : Dictionary α) (key : String) (value : α) : Dictionary α :=
  ⟨(d.erase key).entries ++ [(key, value)]⟩

/-- The entries whose value passes a test. -/
def filterValues (d : Dictionary α) (keep : α → Bool) : Dictionary α :=
  ⟨d.entries.filter fun e => keep e.2⟩

/-- The first value that passes a test. -/
def findValue? (d : Dictionary α) (test : α → Bool) : Option α :=
  (d.entries.find? fun e => test e.2).map Prod.snd

/-- The number of keys. -/
def size (d : Dictionary α) : Nat :=
  d.entries.length

/-- The keys. -/
def keys (d : Dictionary α) : List String :=
  d.entries.map Prod.fst

/-- No key occurs twice. -/
def HasUniqueKeys (d : Dictionary α) : Prop :=
  d.keys.Nodup

@[simp] theorem get?_empty (key : String) : (empty : Dictionary α).get? key = none := rfl

theorem get?_erase (d : Dictionary α) (key k : String) :
    (d.erase key).get? k = if k = key then none else d.get? k := by
  obtain ⟨entries⟩ := d
  simp only [erase, get?]
  induction entries with
  | nil => simp
  | cons e rest ih =>
    obtain ⟨x, a⟩ := e
    by_cases hx : x = key
    · by_cases hk : k = x
      · simpa [hx, hk] using ih
      · simp [hx, List.lookup_cons, ih]
        simp [← hx, hk, beq_eq_false_iff_ne.2 hk]
    · by_cases hk : k = x
      · simp [hk, hx]
      · simp [hx, beq_eq_false_iff_ne.2 hk, List.lookup_cons, ih]

theorem get?_insert (d : Dictionary α) (key k : String) (value : α) :
    (d.insert key value).get? k = if k = key then some value else d.get? k := by
  have h := get?_erase d key k
  simp only [get?] at h
  simp only [insert, get?, List.lookup_append, h]
  by_cases hk : k = key
  · simp [hk]
  · simp [hk, beq_eq_false_iff_ne.2 hk, List.lookup_cons]

theorem hasUniqueKeys_empty : (empty : Dictionary α).HasUniqueKeys :=
  List.nodup_nil

theorem HasUniqueKeys.filter {d : Dictionary α} (h : d.HasUniqueKeys)
    (keep : String × α → Bool) : (⟨d.entries.filter keep⟩ : Dictionary α).HasUniqueKeys :=
  List.Sublist.nodup (List.Sublist.map Prod.fst List.filter_sublist) h

theorem HasUniqueKeys.erase {d : Dictionary α} (h : d.HasUniqueKeys) (key : String) :
    (d.erase key).HasUniqueKeys :=
  h.filter _

theorem HasUniqueKeys.insert {d : Dictionary α} (h : d.HasUniqueKeys) (key : String)
    (value : α) : (d.insert key value).HasUniqueKeys := by
  have unique := h.erase key
  unfold HasUniqueKeys keys at *
  simp only [Dictionary.insert, List.map_append, List.map_cons, List.map_nil]
  refine List.nodup_append.2 ⟨unique, by simp, fun a ha b hb => ?_⟩
  obtain ⟨e, he, rfl⟩ := List.mem_map.1 ha
  obtain rfl : b = key := by simpa using hb
  have := (List.mem_filter.1 he).2
  simpa using this

end Dictionary

end SchemaLedger
