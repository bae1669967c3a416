import SchemaLedger.Labels
import SchemaLedger.Time.Instant

/-!
Descriptions of how values of a type are laid out in JSON.

* A `Codec α` is such a description. It is data, so that one writer and one reader serve all
  types, and what holds of both together is one induction over descriptions.
* The conversions that a description mentions come with the proof that nothing is lost on the
  way out and back.
* `Codec.Fits` holds of the values whose numbers keep within their declared limits; only such
  values can be read back.
-/

namespace SchemaLedger.Json

/-- What a record does without one of its fields. -/
inductive Presence (α : Type) where
  /-- The field must be there. -/
  | required
  /-- A missing field has the given value; the field is always written. -/
  | defaulted (value : α)
  /-- A missing field has the given value, and the field is not written when it has it. -/
  | omitted (value : α) (isAbsent : α → Bool) (eq_of_isAbsent : ∀ a, isAbsent a = true → a = value)

/-- The value of a missing field. -/
def Presence.fallback? {α : Type} : Presence α → Option α
  | .required => none
  | .defaulted a => some a
  | .omitted a _ _ => some a

/-- The field is left out when it has the given value. -/
def Presence.leavesOut {α : Type} : Presence α → α → Bool
  | .omitted _ isAbsent _, a => isAbsent a
  | _, _ => false

mutual
/-- How values of a type are laid out. -/
inductive Codec : Type → Type 1
  /-- A text; the argument names what is expected in messages. -/
  | text (expected : String) : Codec String
  | flag : Codec Bool
  /-- A natural number below a limit. -/
  | number {α : Type} (limit : Nat) (expected : String) (toNat : α → Nat) (ofNat : Nat → α)
      (ofNat_toNat : ∀ a, ofNat (toNat a) = a) : Codec α
  | instant : Codec Instant
  /-- One of several values, by its name. -/
  | choice {α : Type} (label : α → String) (all : List α)
      (label_find : ∀ a, all.find? (fun b => label b == label a) = some a) : Codec α
  | optional {α : Type} (item : Codec α) : Codec (Option α)
  | list {α : Type} (item : Codec α) : Codec (List α)
  | labels : Codec Labels
  /-- A value that is laid out as one of another type. -/
  | via {α β : Type} (inner : Codec β) (split : α → β) (join : β → α)
      (join_split : ∀ a, join (split a) = a) : Codec α
  /-- A record with a name, used in messages, and fields. -/
  | record {α ρ σ : Type} (name : String) (fields : Fields ρ σ) (split : α → ρ) (join : ρ → α)
      (join_split : ∀ a, join (split a) = a) : Codec α

/-- The fields of a record in order. `ρ` collects their values, and `σ` the values found so
far while a record is being read. -/
inductive Fields : Type → Type → Type 1
  | nil : Fields Unit Unit
  | cons {α ρ σ : Type} (key : String) (presence : Presence α) (codec : Codec α)
      (rest : Fields ρ σ) : Fields (α × ρ) (Option α × σ)
end

namespace Fields

/-- The number of fields. -/
def size : {ρ σ : Type} → Fields ρ σ → Nat
  | _, _, .nil => 0
  | _, _, .cons _ _ _ rest => rest.size + 1

/-- Nothing found so far. -/
def noneFound : {ρ σ : Type} → Fields ρ σ → σ
  | _, _, .nil => ()
  | _, _, .cons _ _ _ rest => (none, rest.noneFound)

/-- The keys in order. -/
@[simp] def keys : {ρ σ : Type} → Fields ρ σ → List String
  | _, _, .nil => []
  | _, _, .cons key _ _ rest => key :: rest.keys

end Fields

mutual
/-- All numbers in a value keep within their limits. -/
@[simp] def Codec.Fits : {α : Type} → Codec α → α → Prop
  | _, .number limit _ toNat _ _, a => toNat a < limit
  | _, .optional item, a => ∀ b ∈ a, item.Fits b
  | _, .list item, as => ∀ a ∈ as, item.Fits a
  | _, .via inner split _ _, a => inner.Fits (split a)
  | _, .record _ fields split _ _, a => fields.Fits (split a)
  | _, .text _, _ => True
  | _, .flag, _ => True
  | _, .instant, _ => True
  | _, .choice _ _ _, _ => True
  | _, .labels, _ => True

/-- All numbers in the fields of a record keep within their limits. -/
@[simp] def Fields.Fits : {ρ σ : Type} → Fields ρ σ → ρ → Prop
  | _, _, .nil, _ => True
  | _, _, .cons _ _ codec rest, (a, r) => codec.Fits a ∧ rest.Fits r
end

end SchemaLedger.Json
