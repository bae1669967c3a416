import SchemaLedger.Json.Codec
import SchemaLedger.Json.Quoted

/-!
Writing values as JSON.

* `Codec.write` writes a value in one of two layouts: on one line without spaces, or with one
  item a line, indented by two spaces for each bracket around it. Empty brackets stay on one
  line in both.
-/

namespace SchemaLedger.Json

/-- The two layouts. -/
inductive Layout where
  | compact
  | pretty
  deriving DecidableEq, Repr

namespace Layout

/-- What stands in front of an item inside `depth` brackets. -/
def lead (layout : Layout) (depth : Nat) : List Char :=
  match layout with
  | .compact => []
  | .pretty => '\n' :: List.replicate (2 * depth) ' '

/-- What stands between a key and its value. -/
def colon : Layout → List Char
  | .compact => [':']
  | .pretty => [':', ' ']

/-- The items after the first, each behind a comma. -/
def tail (layout : Layout) (depth : Nat) (items : List (List Char)) : List Char :=
  items.flatMap fun item => ',' :: layout.lead depth ++ item

/-- Items in brackets; `depth` counts the brackets around the items, these included. -/
def enclose (layout : Layout) (opener closer : Char) (depth : Nat) (items : List (List Char)) :
    List Char :=
  match items with
  | [] => [opener, closer]
  | item :: items =>
    opener :: layout.lead depth ++ item ++ layout.tail depth items ++
      layout.lead (depth - 1) ++ [closer]

/-- A key and its value. -/
def member (layout : Layout) (key : String) (value : List Char) : List Char :=
  Quoted.encode key ++ layout.colon ++ value

end Layout

mutual
/-- The text of a value inside `depth` brackets. -/
@[simp] def Codec.writeAt (layout : Layout) : {α : Type} → Codec α → Nat → α → List Char
  | _, .text _, _, s => Quoted.encode s
  | _, .flag, _, b => if b then ['t', 'r', 'u', 'e'] else ['f', 'a', 'l', 's', 'e']
  | _, .number _ _ toNat _ _, _, a => Text.digits (toNat a)
  | _, .instant, _, t => '"' :: t.render ++ ['"']
  | _, .choice label _ _, _, a => Quoted.encode (label a)
  | _, .optional item, depth, a =>
    match a with
    | none => ['n', 'u', 'l', 'l']
    | some a => item.writeAt layout depth a
  | _, .list item, depth, as =>
    layout.enclose '[' ']' (depth + 1) (as.map (item.writeAt layout (depth + 1)))
  | _, .labels, depth, l =>
    layout.enclose '{' '}' (depth + 1)
      (l.entries.map fun e => layout.member e.1 (Quoted.encode e.2))
  | _, .via inner split _ _, depth, a => inner.writeAt layout depth (split a)
  | _, .record _ fields split _ _, depth, a =>
    layout.enclose '{' '}' (depth + 1) (fields.members layout (depth + 1) (split a))

/-- The texts of the fields that are not left out. -/
def Fields.members (layout : Layout) : {ρ σ : Type} → Fields ρ σ → Nat → ρ → List (List Char)
  | _, _, .nil, _, _ => []
  | _, _, .cons key presence codec rest, depth, (a, r) =>
    if presence.leavesOut a then rest.members layout depth r
    else layout.member key (codec.writeAt layout depth a) :: rest.members layout depth r
end

/-- The text of a value. -/
def Codec.write {α : Type} (c : Codec α) (layout : Layout) (a : α) : List Char :=
  c.writeAt layout 0 a

/-- The text of a value on one line. -/
def Codec.compact {α : Type} (c : Codec α) (a : α) : String :=
  String.ofList (c.write .compact a)

/-- The text of a value with one item a line. -/
def Codec.pretty {α : Type} (c : Codec α) (a : α) : String :=
  String.ofList (c.write .pretty a)

end SchemaLedger.Json
