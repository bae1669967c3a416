import SchemaLedger.Json.Codec
import SchemaLedger.Json.Skip
import SchemaLedger.Time.Reading

/-!
Reading values from JSON.

* `Codec.read` reads a text as a value of a known shape. A text that cannot be read is
  refused with the first fault met from left to right; a field that is missing is noticed at
  the end of its record.
* A record may be given as a map, whose unknown keys are passed over, or as the sequence of
  its fields. A choice may be given by its name, or as a map from its name to `null`.
-/

namespace SchemaLedger.Json

/-- The fault of finding another kind of value, after white space. The value found is read as
far as the message needs it, and a fault in it comes first. -/
def mismatch (expected : String) : List Char → Offence
  | [] => .truncated
  | '[' :: _ => .wrongType .sequence expected
  | '{' :: _ => .wrongType .map expected
  | '"' :: cs =>
    match Quoted.decode cs with
    | .ok (s, _) => .wrongType (.text s) expected
    | .error e => e
  | 'n' :: cs =>
    match word ['u', 'l', 'l'] cs with
    | .ok _ => .wrongType .null expected
    | .error e => e
  | 't' :: cs =>
    match word ['r', 'u', 'e'] cs with
    | .ok _ => .wrongType (.flag true) expected
    | .error e => e
  | 'f' :: cs =>
    match word ['a', 'l', 's', 'e'] cs with
    | .ok _ => .wrongType (.flag false) expected
    | .error e => e
  | c :: cs =>
    if c = '-' ∨ c.isDigit then
      match Number.read (c :: cs) with
      | .ok (n, _) => .wrongType n.found expected
      | .error e => e
    else .malformed

/-- A text. -/
def readText (expected : String) (cs : List Char) : Except Offence (String × List Char) :=
  match dropBlank cs with
  | '"' :: cs => Quoted.decode cs
  | cs => .error (mismatch expected cs)

/-- A truth value. -/
def readFlag (cs : List Char) : Except Offence (Bool × List Char) :=
  match dropBlank cs with
  | 't' :: cs => do .ok (true, ← word ['r', 'u', 'e'] cs)
  | 'f' :: cs => do .ok (false, ← word ['a', 'l', 's', 'e'] cs)
  | cs => .error (mismatch "a boolean" cs)

/-- A natural number below a limit. -/
def readNumber (limit : Nat) (expected : String) (cs : List Char) :
    Except Offence (Nat × List Char) :=
  match dropBlank cs with
  | [] => .error .truncated
  | c :: cs =>
    if c = '-' ∨ c.isDigit then do
      match ← Number.read (c :: cs) with
      | (.integer n, cs) =>
        if 0 ≤ n ∧ n.toNat < limit then .ok (n.toNat, cs) else .error (.outOfRange n expected)
      | (.real digits, _) => .error (.wrongType (.real digits) expected)
    else .error (mismatch expected (c :: cs))

/-- A point of time. -/
def readInstant (cs : List Char) : Except Offence (Instant × List Char) := do
  let (s, cs) ← readText "an RFC 3339 formatted date and time string" cs
  match Instant.ofText? s.toList with
  | some t => .ok (t, cs)
  | none => .error .unreadableTime

/-- The value with the given name. -/
def named {α : Type} (label : α → String) (all : List α) (name : String) : Except Offence α :=
  match all.find? fun a => label a == name with
  | some a => .ok a
  | none => .error (.unknownVariant name (all.map label))

/-- The word `null` where nothing else makes sense. -/
def readUnit (cs : List Char) : Except Offence (List Char) :=
  match dropBlank cs with
  | 'n' :: cs => word ['u', 'l', 'l'] cs
  | cs => .error (mismatch "unit" cs)

/-- One of several values, by its name. The name may also be the only key of an object, where
it stands for `null`. -/
def readChoice {α : Type} (label : α → String) (all : List α) (cs : List Char) :
    Except Offence (α × List Char) :=
  match dropBlank cs with
  | '"' :: cs => do
    let (name, cs) ← Quoted.decode cs
    .ok (← named label all name, cs)
  | '{' :: cs =>
    match dropBlank cs with
    | '"' :: cs => do
      let (name, cs) ← Quoted.decode cs
      let a ← named label all name
      let cs ← readUnit (← colon cs)
      match dropBlank cs with
      | '}' :: cs => .ok (a, cs)
      | [] => .error .truncated
      | _ => .error .malformed
    | [] => .error .truncated
    | _ => .error .malformed
  | [] => .error .truncated
  | _ => .error .malformed

/-- Moves to the next item of a sequence; `false` in front of the closing bracket. -/
def nextItem (first : Bool) (cs : List Char) : Except Offence (Bool × List Char) :=
  match dropBlank cs with
  | [] => .error .truncated
  | ']' :: cs => .ok (false, ']' :: cs)
  | c :: cs =>
    if first then .ok (true, c :: cs)
    else if c = ',' then
      match dropBlank cs with
      | [] => .error .truncated
      | ']' :: _ => .error .malformed
      | cs => .ok (true, cs)
    else .error .malformed

/-- The text after the closing bracket of a sequence. -/
def endItems (cs : List Char) : Except Offence (List Char) :=
  match dropBlank cs with
  | ']' :: cs => .ok cs
  | [] => .error .truncated
  | _ => .error .malformed

/-- At most `fuel` items of a sequence, and the text from its closing bracket on. -/
def readItems {α : Type} (item : List Char → Except Offence (α × List Char)) :
    Nat → Bool → List Char → Except Offence (List α × List Char)
  | 0, _, _ => .error .truncated
  | fuel + 1, first, cs => do
    match ← nextItem first cs with
    | (false, cs) => .ok ([], cs)
    | (true, cs) => do
      let (a, cs) ← item cs
      let (as, cs) ← readItems item fuel false cs
      .ok (a :: as, cs)

/-- The next key of a map, or none after its closing bracket. -/
def nextKey (first : Bool) (cs : List Char) : Except Offence (Option String × List Char) :=
  match dropBlank cs with
  | [] => .error .truncated
  | '}' :: cs => .ok (none, cs)
  | c :: cs =>
    if first then
      if c = '"' then do
        let (key, cs) ← Quoted.decode cs
        .ok (some key, cs)
      else .error .malformed
    else if c = ',' then
      match dropBlank cs with
      | '"' :: cs => do
        let (key, cs) ← Quoted.decode cs
        .ok (some key, cs)
      | [] => .error .truncated
      | _ => .error .malformed
    else .error .malformed

/-- At most `fuel` members of a map, each read by `member` with what was found before. -/
def readMembers {σ : Type} (member : String → σ → List Char → Except Offence (σ × List Char)) :
    Nat → Bool → σ → List Char → Except Offence (σ × List Char)
  | 0, _, _, _ => .error .truncated
  | fuel + 1, first, found, cs => do
    match ← nextKey first cs with
    | (none, cs) => .ok (found, cs)
    | (some key, cs) => do
      let (found, cs) ← member key found cs
      readMembers member fuel false found cs

/-- A member of a map of texts; the last text of a name wins. -/
def readLabel (key : String) (found : Labels) (cs : List Char) :
    Except Offence (Labels × List Char) := do
  let (value, cs) ← readText "a string" (← colon cs)
  .ok (found.insert key value, cs)

/-- The values of a record from what was found, with the fallbacks of missing fields. -/
def Fields.collect : {ρ σ : Type} → Fields ρ σ → σ → Except Offence ρ
  | _, _, .nil, _ => .ok ()
  | _, _, .cons key presence _ rest, (found, more) =>
    match found <|> presence.fallback? with
    | some a => do .ok (a, ← rest.collect more)
    | none => .error (.missingField key)

mutual
/-- A value at the start of a text, and the text after it. -/
@[simp] def Codec.readFrom : {α : Type} → Codec α → List Char → Except Offence (α × List Char)
  | _, .text expected, cs => readText expected cs
  | _, .flag, cs => readFlag cs
  | _, .number limit expected _ ofNat _, cs => do
    let (n, cs) ← readNumber limit expected cs
    .ok (ofNat n, cs)
  | _, .instant, cs => readInstant cs
  | _, .choice label all _, cs => readChoice label all cs
  | _, .optional item, cs =>
    match dropBlank cs with
    | 'n' :: cs => do .ok (none, ← word ['u', 'l', 'l'] cs)
    | cs => do
      let (a, cs) ← item.readFrom cs
      .ok (some a, cs)
  | _, .list item, cs =>
    match dropBlank cs with
    | '[' :: cs => do
      let (as, cs) ← readItems item.readFrom (cs.length + 1) true cs
      .ok (as, ← endItems cs)
    | cs => .error (mismatch "a sequence" cs)
  | _, .labels, cs =>
    match dropBlank cs with
    | '{' :: cs => readMembers readLabel (cs.length + 1) true Labels.empty cs
    | cs => .error (mismatch "a map" cs)
  | _, .via inner _ join _, cs => do
    let (b, cs) ← inner.readFrom cs
    .ok (join b, cs)
  | _, .record name fields _ join _, cs =>
    match dropBlank cs with
    | '[' :: cs => do
      let (r, cs) ← fields.readItems name fields.size 0 cs
      .ok (join r, ← endItems cs)
    | '{' :: cs => do
      let (found, cs) ← readMembers fields.readMember (cs.length + 1) true fields.noneFound cs
      .ok (join (← fields.collect found), cs)
    | cs => .error (mismatch ("struct " ++ name) cs)

/-- The member with the given key, if it is one of the fields and was not found before; any
other member is passed over. -/
def Fields.readMember : {ρ σ : Type} → Fields ρ σ → String → σ → List Char →
    Except Offence (σ × List Char)
  | _, _, .nil, _, found, cs => do .ok (found, ← skip (← colon cs))
  | _, _, .cons key _ codec rest, k, (found, more), cs =>
    if k = key then
      match found with
      | some _ => .error (.duplicateField key)
      | none => do
        let (a, cs) ← codec.readFrom (← colon cs)
        .ok ((some a, more), cs)
    else do
      let (more, cs) ← rest.readMember k more cs
      .ok ((found, more), cs)

/-- The fields as the items of a sequence, from the item at `index` on. Items at the end may
be missing if their fields have fallbacks. -/
def Fields.readItems : {ρ σ : Type} → Fields ρ σ → String → Nat → Nat → List Char →
    Except Offence (ρ × List Char)
  | _, _, .nil, _, _, _, cs => .ok ((), cs)
  | _, _, .cons _ presence codec rest, name, size, index, cs => do
    let (more, cs) ← nextItem (index == 0) cs
    if more then
      let (a, cs) ← codec.readFrom cs
      let (r, cs) ← rest.readItems name size (index + 1) cs
      .ok ((a, r), cs)
    else
      match presence.fallback? with
      | some a => do
        let (r, cs) ← rest.readItems name size (index + 1) cs
        .ok ((a, r), cs)
      | none => .error (.tooShort index name size)
end

/-- A text that is one value. -/
def Codec.read {α : Type} (c : Codec α) (text : String) : Except Offence α := do
  let (a, rest) ← c.readFrom text.toList
  if (dropBlank rest).isEmpty then .ok a else .error .malformed

end SchemaLedger.Json
