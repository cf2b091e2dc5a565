import PeerProbe.Text.Blank
import PeerProbe.Text.Decimal

/-!
# Command-line arguments

An option has a long name and may have a short one, and always takes a value: attached behind `=` or
directly behind the short name, or as the next argument, which then must not look like an option. An
option may be given once. Behind `--` everything is an operand. Arguments are judged from left to
right, so the first fault, or the first wish for help, decides.
-/

namespace PeerProbe.Command

/-- What the value of an option has to be. -/
inductive ValueKind where
  | text
  | number
  | truth
  deriving DecidableEq, Repr

/-- An option with its placeholder and its line of help. -/
structure OptionSpec where
  long : String
  short : Option Char
  kind : ValueKind
  placeholder : String
  help : String
  deriving DecidableEq, Repr

/-- An operand with its line of help. -/
structure OperandSpec where
  placeholder : String
  help : String
  deriving DecidableEq, Repr

/-- What a program or one of its commands takes. A program has commands, each with its line of
help, and takes no operands of its own. -/
structure Grammar where
  usage : String
  about : String
  commands : List (String × String) := []
  options : List OptionSpec
  operands : List OperandSpec := []
  versioned : Bool := false

/-- Why a command line is refused. -/
inductive UsageError where
  | unknownArgument (text : String)
  | missingValue (o : OptionSpec)
  | invalidValue (o : OptionSpec) (value : String)
  | repeated (o : OptionSpec)
  | missingOperand (o : OperandSpec)
  | missingCommand
  | unknownCommand (name : String)
  deriving DecidableEq, Repr

/-- Why no command is carried out: the command line is refused, or it only asks for information. -/
inductive Halt where
  | usage (e : UsageError)
  | help
  | version
  deriving DecidableEq, Repr

/-- An option as messages name it. -/
def OptionSpec.label (o : OptionSpec) : String := "--" ++ o.long ++ " <" ++ o.placeholder ++ ">"

/-- The wording of a refusal. -/
def UsageError.message : UsageError → String
  | .unknownArgument text => "unexpected argument '" ++ text ++ "' found"
  | .missingValue o => "a value is required for '" ++ o.label ++ "' but none was supplied"
  | .invalidValue o value => "invalid value '" ++ value ++ "' for '" ++ o.label ++ "'"
  | .repeated o => "the argument '" ++ o.label ++ "' cannot be used multiple times"
  | .missingOperand o =>
    "the following required arguments were not provided:\n  <" ++ o.placeholder ++ ">"
  | .missingCommand => "a subcommand is required but one was not provided"
  | .unknownCommand name => "unrecognized subcommand '" ++ name ++ "'"

namespace ValueKind

/-- A number of 64 bits. -/
def number? (s : String) : Option UInt64 :=
  (Text.unsigned? 0x10000000000000000 s.toList).map UInt64.ofNat

/-- Yes or no. -/
def truth? (s : String) : Option Bool :=
  if s = "true" then some true else if s = "false" then some false else none

/-- Whether a text is a value of a kind. -/
def accepts (k : ValueKind) (s : String) : Bool :=
  match k with
  | .text => true
  | .number => (number? s).isSome
  | .truth => (truth? s).isSome

end ValueKind

/-- What was given: the values of options by long name, and the operands in order. -/
structure Arguments where
  values : List (String × String) := []
  operands : List String := []
  deriving DecidableEq, Repr

namespace Arguments

/-- The value of an option. -/
def text? (a : Arguments) (long : String) : Option String := a.values.lookup long

/-- The value of an option that takes a number. -/
def number? (a : Arguments) (long : String) : Option UInt64 :=
  (a.text? long).bind ValueKind.number?

/-- The value of an option that takes yes or no. -/
def truth? (a : Arguments) (long : String) : Option Bool := (a.text? long).bind ValueKind.truth?

/-- The first operand. -/
def operand (a : Arguments) : String := a.operands.headD ""

/-- Set the value of an option. -/
def set (a : Arguments) (o : OptionSpec) (value : String) : Except Halt Arguments :=
  if (a.text? o.long).isSome then .error (.usage (.repeated o))
  else if o.kind.accepts value then .ok { a with values := a.values ++ [(o.long, value)] }
  else .error (.usage (.invalidValue o value))

end Arguments

/-- One argument as it looks by itself. -/
inductive Token where
  | operand
  | rest
  | help
  | version
  | option (o : OptionSpec) (attached : Option (List Char))
  | unknown
  deriving DecidableEq

namespace Grammar

/-- What comes behind a long name, with the value that is attached to it. -/
def longToken (g : Grammar) (name : List Char) (attached : Option (List Char)) : Token :=
  if name = "help".toList then (if attached.isSome then .unknown else .help)
  else if g.versioned ∧ name = "version".toList then
    (if attached.isSome then .unknown else .version)
  else match g.options.find? (·.long.toList = name) with
    | some o => .option o attached
    | none => .unknown

/-- What comes behind a short name, with the characters behind it. -/
def shortToken (g : Grammar) (name : Char) (behind : List Char) : Token :=
  if name = 'h' then .help
  else if g.versioned ∧ name = 'V' then .version
  else match g.options.find? (·.short = some name) with
    | some o =>
      .option o (match behind with
        | [] => none
        | '=' :: value => some value
        | value => some value)
    | none => .unknown

/-- How an argument looks. -/
def token (g : Grammar) (arg : String) : Token :=
  match arg.toList with
  | ['-', '-'] => .rest
  | '-' :: '-' :: long =>
    match Text.cut? '=' long with
    | some (name, value) => g.longToken name (some value)
    | none => g.longToken long none
  | '-' :: name :: behind => g.shortToken name behind
  | _ => .operand

/-- Whether an argument cannot be the value of the option in front of it. -/
def looksLikeOption (arg : String) : Bool :=
  match arg.toList with
  | '-' :: _ :: _ => true
  | _ => false

/-- One more operand. -/
def addOperand (g : Grammar) (a : Arguments) (arg : String) : Except Halt Arguments :=
  if a.operands.length < g.operands.length then .ok { a with operands := a.operands ++ [arg] }
  else .error (.usage (.unknownArgument arg))

/-- Arguments that are all operands. -/
def addOperands (g : Grammar) (a : Arguments) : List String → Except Halt Arguments
  | [] => .ok a
  | arg :: rest => do addOperands g (← g.addOperand a arg) rest

/-- Read arguments up to their end. -/
def scan (g : Grammar) (a : Arguments) : List String → Except Halt Arguments
  | [] => .ok a
  | arg :: rest =>
    match g.token arg with
    | .operand => do scan g (← g.addOperand a arg) rest
    | .rest => g.addOperands a rest
    | .help => .error .help
    | .version => .error .version
    | .unknown => .error (.usage (.unknownArgument arg))
    | .option o (some value) => do scan g (← a.set o (String.ofList value)) rest
    | .option o none =>
      match rest with
      | [] => .error (.usage (.missingValue o))
      | value :: rest =>
        if looksLikeOption value then .error (.usage (.missingValue o))
        else do scan g (← a.set o value) rest

/-- Read the arguments of a command, all of whose operands must be there. -/
def read (g : Grammar) (args : List String) : Except Halt Arguments := do
  let a ← g.scan {} args
  match g.operands.drop a.operands.length with
  | [] => .ok a
  | missing :: _ => .error (.usage (.missingOperand missing))

/-- Read the options of a program in front of the name of a command. What stands behind the name is
left over. -/
def scanCommand (g : Grammar) (a : Arguments) :
    List String → Except Halt (Arguments × String × List String)
  | [] => .error (.usage .missingCommand)
  | arg :: rest =>
    match g.token arg with
    | .operand => .ok (a, arg, rest)
    | .rest => .error (.usage (.unknownArgument arg))
    | .help => .error .help
    | .version => .error .version
    | .unknown => .error (.usage (.unknownArgument arg))
    | .option o (some value) => do scanCommand g (← a.set o (String.ofList value)) rest
    | .option o none =>
      match rest with
      | [] => .error (.usage (.missingValue o))
      | value :: rest =>
        if looksLikeOption value then .error (.usage (.missingValue o))
        else do scanCommand g (← a.set o value) rest

end Grammar

end PeerProbe.Command
