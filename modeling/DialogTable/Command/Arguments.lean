import DialogTable.Text.Split

/-!
# Arguments

The arguments of a command are options and operands in any order. An option has a long name behind
two dashes, and it may have a short one behind a single dash. Its value is the next argument, or it
is attached: behind an equals sign, or right behind a short name. Two dashes alone make everything
after them an operand. A single dash alone is an operand too, or a value.

Reading goes from left to right and stops at the first argument that fits nothing, or that asks for
help or for the version.
-/

namespace DialogTable.Command

/-- An argument with a name. Only options with a value have a short name. -/
structure OptionForm where
  long : String
  short : Option Char := none
  takesValue : Bool := true
  repeatable : Bool := false
  /-- The values that make sense. -/
  accepts : String → Bool := fun _ => true

/-- What may stand in a list of arguments. -/
structure Grammar where
  options : List OptionForm := []
  /-- The number of operands. -/
  operands : Nat := 0
  /-- Operands that end the list. -/
  words : List String := []
  hasVersion : Bool := false

/-- Why there is nothing to run. -/
inductive Stop
  | misuse
  | help
  | version
  deriving DecidableEq, Repr

/-- Options with their values, in the order given, and operands. An option without a value has an
empty one. -/
structure Arguments where
  options : List (String × String) := []
  operands : List String := []
  deriving DecidableEq, Repr

namespace Arguments

/-- The values of an option. -/
def values (arguments : Arguments) (name : String) : List String :=
  (arguments.options.filter (·.1 = name)).map Prod.snd

/-- The value of an option that is given once. -/
def value? (arguments : Arguments) (name : String) : Option String :=
  (arguments.values name).head?

/-- Whether an option is given. -/
def has (arguments : Arguments) (name : String) : Bool :=
  (arguments.value? name).isSome

end Arguments

namespace Grammar

/-- What one argument does. -/
inductive Effect
  /-- An option waits for its value. -/
  | awaits (option : OptionForm)
  | gives (arguments : Arguments)
  /-- The list is at its end. -/
  | ends

/-- Adds an option. -/
def give (option : OptionForm) (value : String) (given : Arguments) : Except Stop Effect :=
  if given.has option.long ∧ !option.repeatable then .error .misuse
  else if option.accepts value then
    .ok (.gives { given with options := given.options ++ [(option.long, value)] })
  else .error .misuse

/-- Adds an operand. -/
def giveOperand (grammar : Grammar) (operand : String) (given : Arguments) : Except Stop Effect :=
  if given.operands.length < grammar.operands then
    .ok (.gives { given with operands := given.operands ++ [operand] })
  else .error .misuse

/-- Reads an argument with two dashes, given without them. -/
def readLong (grammar : Grammar) (text : List Char) (given : Arguments) : Except Stop Effect :=
  let (name, attached) := match Text.splitFirst '=' text with
    | some (name, value) => (String.ofList name, some (String.ofList value))
    | none => (String.ofList text, none)
  match grammar.options.find? (·.long = name), attached with
  | some option, some value => if option.takesValue then give option value given else .error .misuse
  | some option, none => if option.takesValue then .ok (.awaits option) else give option "" given
  | none, some _ => .error .misuse
  | none, none =>
    if name = "help" then .error .help
    else if name = "version" ∧ grammar.hasVersion then .error .version
    else .error .misuse

/-- Reads an argument with one dash, given without it: a letter and what is attached to it. -/
def readShort (grammar : Grammar) (letter : Char) (attached : List Char) (given : Arguments) :
    Except Stop Effect :=
  match grammar.options.find? (·.short = some letter), attached with
  | some option, [] => .ok (.awaits option)
  | some option, '=' :: value => give option (.ofList value) given
  | some option, value => give option (.ofList value) given
  | none, _ =>
    if letter = 'h' then .error .help
    else if letter = 'V' ∧ grammar.hasVersion then .error .version
    else .error .misuse

/-- Reads an argument that is no value. -/
def readOne (grammar : Grammar) (argument : String) (given : Arguments) : Except Stop Effect :=
  if argument ∈ grammar.words then .ok .ends
  else match argument.toList with
    | '-' :: '-' :: text => grammar.readLong text given
    | '-' :: letter :: attached => grammar.readShort letter attached given
    | _ => grammar.giveOperand argument given

/-- Whether an argument can be the value of the option before it. -/
def isValue (argument : String) : Bool :=
  match argument.toList with
  | '-' :: _ :: _ => false
  | _ => true

/-- Reads operands only. -/
def readOperands (grammar : Grammar) (given : Arguments) (operands : List String) :
    Except Stop Arguments :=
  if given.operands.length + operands.length ≤ grammar.operands then
    .ok { given with operands := given.operands ++ operands }
  else .error .misuse

/-- Reads a list of arguments, with an option that waits for its value. What stands behind the end
of the list comes with the arguments. -/
def readFrom (grammar : Grammar) :
    Option OptionForm → Arguments → List String → Except Stop (Arguments × List String)
  | some _, _, [] => .error .misuse
  | none, given, [] => .ok (given, [])
  | some option, given, value :: rest =>
    if isValue value then
      match give option value given with
      | .ok (.gives given) => readFrom grammar none given rest
      | .ok _ => .error .misuse
      | .error stop => .error stop
    else .error .misuse
  | none, given, argument :: rest =>
    if argument = "--" then (grammar.readOperands given rest).map fun given => (given, [])
    else match grammar.readOne argument given with
      | .ok (.awaits option) => readFrom grammar (some option) given rest
      | .ok (.gives given) => readFrom grammar none given rest
      | .ok .ends => .ok (given, argument :: rest)
      | .error stop => .error stop

/-- Reads a list of arguments. -/
def read (grammar : Grammar) (arguments : List String) : Except Stop (Arguments × List String) :=
  grammar.readFrom none {} arguments

end Grammar

end DialogTable.Command
