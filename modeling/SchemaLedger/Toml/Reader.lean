import SchemaLedger.Toml.Quoted
import SchemaLedger.Toml.Scalar
import SchemaLedger.Toml.Tree

/-!
Reading a settings file.

A file is a sequence of lines: a header of a table, a header of a list item, or a key and its
value. `read` gives the table of all entries, and nothing if any line is at fault. Neither a key
nor lists and tables within each other may be deeper than `maxDepth`.
-/

namespace SchemaLedger.Toml

/-- The most parts of a key, and the most lists and tables on one line within each other. -/
def maxDepth : Nat := 79

/-! ### Keys -/

/-- A character of a key without quotes. -/
def isBare (c : Char) : Bool :=
  c.isAlphanum || c == '_' || c == '-'

/-- One part of a key. -/
def part? (cs : List Char) : Option (String × List Char) :=
  match cs with
  | '"' :: _ | '\'' :: _ => do
    let (s, cs) ← line? cs
    some (String.ofList s, cs)
  | cs =>
    let s := cs.takeWhile isBare
    if s.isEmpty then none else some (String.ofList s, cs.drop s.length)

/-- A key of at most `most` parts with dots between them, and blanks around each part. -/
def parts? : Nat → List Char → Option (List String × List Char)
  | 0, _ => none
  | most + 1, cs => do
    let (part, cs) ← part? (dropBlank cs)
    match dropBlank cs with
    | '.' :: cs => do
      let (parts, cs) ← parts? most cs
      some (part :: parts, cs)
    | cs => some ([part], cs)

/-- A key. -/
def key? (cs : List Char) : Option (List String × List Char) :=
  parts? maxDepth cs

/-- The last part of a key, and the path to it. -/
def splitKey? (parts : List String) : Option (List String × String) :=
  parts.getLast?.map fun key => (parts.dropLast, key)

/-! ### Values -/

/-- The text after a comment, if it starts with one. -/
def dropComment : List Char → List Char
  | '#' :: cs => cs.dropWhile isPlain
  | cs => cs

/-- The text after blanks, line breaks and comments, in at most `fuel` lines. -/
def dropGap : Nat → List Char → List Char
  | 0, cs => cs
  | fuel + 1, cs =>
    let cs := dropComment (dropBlank cs)
    match lineBreak? cs with
    | some cs => dropGap fuel cs
    | none => cs

mutual
/-- A value, in which lists and tables are at most `room` deep. -/
def value? : Nat → Nat → List Char → Option (Setting × List Char)
  | 0, _, _ => none
  | fuel + 1, room, cs =>
    match room, cs with
    | 0, '[' :: _ | 0, '{' :: _ => none
    | room + 1, '[' :: cs => do
      let (items, cs) ← items? fuel room cs
      some (.list items, cs)
    | room + 1, '{' :: cs =>
      match dropBlank cs with
      | '}' :: cs => some (.empty, cs)
      | cs => do
        let (entries, cs) ← fields? fuel room [] cs
        some (← tableSetting? (← settings? entries), cs)
    | _, '"' :: _ | _, '\'' :: _ => do
      let (s, cs) ← quoted? cs
      some (.text (String.ofList s), cs)
    | _, cs => if isMoment cs then moment? cs else (flag? cs).or (number? cs)

/-- The items of a list and its closing bracket. A comma may follow the last item. -/
def items? : Nat → Nat → List Char → Option (List Setting × List Char)
  | 0, _, _ => none
  | fuel + 1, room, cs =>
    match dropGap (cs.length + 1) cs with
    | ']' :: cs => some ([], cs)
    | cs => do
      let (item, cs) ← value? fuel room cs
      match dropGap (cs.length + 1) cs with
      | ',' :: cs => do
        let (items, cs) ← items? fuel room cs
        some (item :: items, cs)
      | ']' :: cs => some ([item], cs)
      | _ => none

/-- The entries of a table on one line and its closing bracket. -/
def fields? : Nat → Nat → Entries → List Char → Option (Entries × List Char)
  | 0, _, _, _ => none
  | fuel + 1, room, entries, cs => do
    let (parts, cs) ← key? cs
    let (path, key) ← splitKey? parts
    let cs ← after? '=' cs
    let (value, cs) ← value? fuel room (dropBlank cs)
    let entries ← entries.define? [] path key value
    match dropBlank cs with
    | ',' :: cs => fields? fuel room entries cs
    | '}' :: cs => some (entries, cs)
    | _ => none
end

/-! ### Lines -/

/-- What has been read so far: all entries, and the path of the open table. -/
structure Draft where
  entries : Entries := []
  header : List String := []

/-- The text after the end of a line, in front of which only a comment may stand. -/
def endLine? (cs : List Char) : Option (List Char) :=
  match dropComment (dropBlank cs) with
  | [] => some []
  | cs => lineBreak? cs

/-- A header between brackets that have been opened. -/
def header? (draft : Draft) (cs : List Char) : Option (Draft × List Char) :=
  match cs with
  | '[' :: cs => do
    let (parts, cs) ← key? cs
    let (path, key) ← splitKey? parts
    let cs ← after? ']' (← after? ']' cs)
    some (⟨← draft.entries.openItem? path key, parts⟩, cs)
  | cs => do
    let (parts, cs) ← key? cs
    let (path, key) ← splitKey? parts
    let cs ← after? ']' cs
    some (⟨← draft.entries.openTable? path key, parts⟩, cs)

/-- A key and its value. -/
def entry? (draft : Draft) (cs : List Char) : Option (Draft × List Char) := do
  let (parts, cs) ← key? cs
  let (path, key) ← splitKey? parts
  let cs := dropBlank (← after? '=' cs)
  let (value, cs) ← value? (cs.length + 1) maxDepth cs
  some ({ draft with entries := ← draft.entries.define? draft.header path key value }, cs)

/-- A line that is not empty. -/
def content? (draft : Draft) : List Char → Option (Draft × List Char)
  | '[' :: cs => header? draft cs
  | cs => entry? draft cs

/-- At most `fuel` lines. -/
def lines? : Nat → Draft → List Char → Option Draft
  | 0, _, _ => none
  | fuel + 1, draft, cs =>
    match dropComment (dropBlank cs) with
    | [] => some draft
    | c :: cs =>
      match lineBreak? (c :: cs) with
      | some cs => lines? fuel draft cs
      | none => do
        let (draft, cs) ← content? draft (c :: cs)
        lines? fuel draft (← endLine? cs)

/-- The table that a file describes. A mark of the byte order at its start does not count. -/
def read (s : String) : Option Setting :=
  let cs := match s.toList with
    | '\ufeff' :: cs => cs
    | cs => cs
  (lines? (cs.length + 1) {} cs).bind fun draft => do
    match ← tableSetting? (← settings? draft.entries) with
    | .table entries => some (.table entries)
    | _ => none

end SchemaLedger.Toml
