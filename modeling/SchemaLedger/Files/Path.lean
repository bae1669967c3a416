/-!
Paths of files and folders.

* A `Path` is the list of its steps. `Path.ofText` drops empty steps and steps that stay where
  they are, apart from one at the end: such a path can only lead to a folder. An absolute path
  starts with the step `/`.
* `Path.name?` is the name that a path ends in. A path that leads upwards at its end has none.
* `extension?` and `stem` split the name of a file at its last dot. A dot at the start of a
  name splits nothing off.
-/

namespace SchemaLedger

/-- The steps from the current folder, or from the root if the first step is `/`. The empty
step stands for a slash at the end, and a dot for staying where one is. -/
abbrev Path := List String

namespace Path

/-- A step that leads nowhere else. -/
def stays (step : String) : Bool :=
  step == "" || step == "."

/-- The step that stays at the end of a path with the given parts, if there is one. Slashes
right behind a name are not the same as a dot behind it. -/
def ending (parts : List String) : List String :=
  match parts.reverse.dropWhile (· == "") with
  | [] | ".." :: _ => []
  | "." :: _ => ["."]
  | _ => if parts.getLast? = some "" then [""] else []

/-- The path that a text denotes. -/
def ofText (s : String) : Path :=
  let parts := s.splitOn "/"
  let steps := (parts.filter fun step => !stays step) ++ ending parts
  if s.toList.head? = some '/' then "/" :: steps else steps

/-- The text of a path. -/
def render : Path → String
  | [] => "."
  | "/" :: rest => "/" ++ "/".intercalate rest
  | steps => "/".intercalate steps

/-- The path without a step at its end that stays. -/
def withoutEnding (path : Path) : Path :=
  match path.getLast? with
  | some step => if stays step then path.dropLast else path
  | none => []

/-- The name at the end of a path. -/
def name? (path : Path) : Option String :=
  path.withoutEnding.getLast?.filter fun step => step != ".." && step != "/"

/-- The path with another name at its end. -/
def withName (path : Path) (name : String) : Path :=
  path.withoutEnding.dropLast ++ [name]

end Path

namespace FileName

/-- The parts of a name before and after its last dot, both without the dot. -/
def splitLast (cs : List Char) : Option (List Char × List Char) :=
  let after := cs.reverse.takeWhile (· != '.')
  if after.length = cs.length then none
  else some (cs.take (cs.length - after.length - 1), after.reverse)

/-- What follows the last dot of a name, unless that dot is the name's first character. -/
def extension? (name : String) : Option String :=
  match splitLast name.toList with
  | some (before, after) =>
    if before.isEmpty || name == ".." then none else some (String.ofList after)
  | none => none

/-- The name without its extension. -/
def stem (name : String) : String :=
  match extension? name, splitLast name.toList with
  | some _, some (before, _) => String.ofList before
  | _, _ => name

/-- The name with another extension. -/
def withExtension (name extension : String) : String :=
  stem name ++ "." ++ extension

end FileName

end SchemaLedger
