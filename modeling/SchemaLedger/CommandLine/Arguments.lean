/-!
Options and operands on a command line.

* An option has a long name, and maybe a letter. Its value is joined to it or is the next
  argument; a joined value may be anything, but the next argument must not look like an option.
* `scan` reads arguments from left to right and stops at the first that is at fault, or that
  asks for help. No option may be given twice, and after two hyphens all arguments are operands.
-/

namespace SchemaLedger.CommandLine

/-- Why arguments are no command. -/
inductive Refusal where
  /-- They ask for help instead. -/
  | help
  | misuse
  deriving DecidableEq, Repr

/-- An option that may be given. -/
structure OptionForm where
  long : String
  letter : Option Char := none
  /-- The option has no value. -/
  isFlag : Bool := false
  /-- The values that the option takes. -/
  accepts : String → Bool := fun _ => true

/-- What was found on a command line. -/
structure Findings where
  /-- Long names of options with their values; flags have an empty one. -/
  options : List (String × String) := []
  operands : List String := []
  deriving DecidableEq, Repr

namespace Findings

/-- The value of an option, if it was given. -/
def value? (f : Findings) (long : String) : Option String :=
  f.options.lookup long

/-- The option was given. -/
def has (f : Findings) (long : String) : Bool :=
  (f.value? long).isSome

/-- One more option. -/
def withOption (f : Findings) (form : OptionForm) (value : String) : Except Refusal Findings :=
  if f.has form.long || !form.accepts value then .error .misuse
  else .ok { f with options := f.options ++ [(form.long, value)] }

/-- One more operand, if there may be one. -/
def withOperand (f : Findings) (most : Nat) (operand : String) : Except Refusal Findings :=
  if f.operands.length < most then .ok { f with operands := f.operands ++ [operand] }
  else .error .misuse

end Findings

/-- An argument that cannot be the value of the option before it. -/
def looksLikeOption (argument : String) : Bool :=
  argument.startsWith "-" && argument != "-"

/-- What an argument is. -/
inductive Shape where
  /-- Two hyphens. -/
  | divider
  /-- A long name, and the value joined to it. -/
  | long (name : String) (joined : Option String)
  /-- A letter, and what is joined to it. -/
  | letter (letter : Char) (joined : Option String)
  | operand
  deriving DecidableEq, Repr

/-- The parts before and after the first equals sign. -/
def splitJoined (cs : List Char) : String × Option String :=
  match cs.dropWhile (· != '=') with
  | [] => (String.ofList cs, none)
  | _ :: value => (String.ofList (cs.takeWhile (· != '=')), some (String.ofList value))

/-- What an argument is. -/
def shape (argument : String) : Shape :=
  match argument.toList with
  | ['-', '-'] => .divider
  | '-' :: '-' :: cs =>
    let (name, joined) := splitJoined cs
    .long name joined
  | ['-', c] => .letter c none
  | '-' :: c :: '=' :: value => .letter c (some (String.ofList value))
  | '-' :: c :: value => .letter c (some (String.ofList value))
  | _ => .operand

/-- The option that an argument names. -/
def formOf (forms : List OptionForm) : Shape → Except Refusal OptionForm
  | .long "help" none => .error .help
  | .letter 'h' _ => .error .help
  | .long name _ =>
    match forms.find? fun form => form.long == name with
    | some form => .ok form
    | none => .error .misuse
  | .letter c _ =>
    match forms.find? fun form => form.letter == some c with
    | some form => .ok form
    | none => .error .misuse
  | _ => .error .misuse

/-- The value joined to an option. -/
def Shape.joined? : Shape → Option String
  | .long _ joined => joined
  | .letter _ joined => joined
  | _ => none

/-- What an argument adds to what was found before. -/
inductive Progress where
  | divider
  | operand
  /-- An option, which may still lack its value. -/
  | options (pending : Option OptionForm) (found : Findings)

/-- Reads one argument; `pending` is the option whose value it must be. -/
def step (forms : List OptionForm) (pending : Option OptionForm) (found : Findings)
    (argument : String) : Except Refusal Progress := do
  match pending with
  | some form =>
    if looksLikeOption argument then .error .misuse
    else .ok (.options none (← found.withOption form argument))
  | none =>
    match shape argument with
    | .divider => .ok .divider
    | .operand => .ok .operand
    | option =>
      let form ← formOf forms option
      match form.isFlag, option.joined? with
      | true, none => .ok (.options none (← found.withOption form ""))
      | true, some _ => .error .misuse
      | false, some value => .ok (.options none (← found.withOption form value))
      | false, none => .ok (.options (some form) found)

/-- Reads all arguments. At most `most` of them may be operands. -/
def scan (forms : List OptionForm) (most : Nat) :
    Option OptionForm → Findings → List String → Except Refusal Findings
  | none, found, [] => .ok found
  | some _, _, [] => .error .misuse
  | pending, found, argument :: rest => do
    match ← step forms pending found argument with
    | .divider => rest.foldlM (fun found a => found.withOperand most a) found
    | .operand => scan forms most none (← found.withOperand most argument) rest
    | .options pending found => scan forms most pending found rest

/-- Reads the options in front of the first operand, which is given with all that follow it. -/
def scanLeading (forms : List OptionForm) :
    Option OptionForm → Findings → List String → Except Refusal (Findings × List String)
  | none, found, [] => .ok (found, [])
  | some _, _, [] => .error .misuse
  | pending, found, argument :: rest => do
    match ← step forms pending found argument with
    | .divider => .error .misuse
    | .operand => .ok (found, argument :: rest)
    | .options pending found => scanLeading forms pending found rest

end SchemaLedger.CommandLine
