import PeerProbe.Command.Help

/-!
# Programs with commands

A program reads its own options up to the name of a command and gives the rest of the command line
to that command. The command `help` explains the program or one of its commands. Some options of
the program may also be given behind the name of the command, where they count for more.
-/

namespace PeerProbe.Command

/-- A command: its name, what it takes, and what its arguments mean. -/
structure CommandSpec (α : Type) where
  name : String
  grammar : Grammar
  meaning : Arguments → α

/-- A program. Its release is printed behind its name. -/
structure Program (α : Type) where
  name : String
  release : String
  grammar : Grammar
  commands : List (CommandSpec α)

/-- What a command line comes to: a command with the program's own arguments, a text that was asked
for, or a refusal with a text. -/
inductive Invocation (α : Type) where
  | run (own : Arguments) (command : α)
  | inform (text : String)
  | refuse (text : String)

namespace Program

variable {α : Type}

/-- What stopping early comes to. -/
def halted (p : Program α) (g : Grammar) : Halt → Invocation α
  | .usage .missingCommand => .refuse p.grammar.helpText
  | .usage e => .refuse (g.refusalText e)
  | .help => .inform g.helpText
  | .version => .inform (p.name ++ " " ++ p.release ++ "\n")

/-- A command of the program by name. -/
def command? (p : Program α) (name : String) : Option (CommandSpec α) :=
  p.commands.find? (·.name = name)

/-- What the command `help` comes to. -/
def explain (p : Program α) : List String → Invocation α
  | [] => .inform p.grammar.helpText
  | name :: _ =>
    match p.command? name with
    | some c => .inform c.grammar.helpText
    | none =>
      if name = "help" then .inform p.grammar.helpText
      else .refuse (p.grammar.refusalText (.unknownCommand name))

/-- What a command line comes to. -/
def invoke (p : Program α) (args : List String) : Invocation α :=
  match p.grammar.scanCommand {} args with
  | .error h => p.halted p.grammar h
  | .ok (own, name, rest) =>
    match p.command? name with
    | some c =>
      match c.grammar.read rest with
      | .ok a => .run own (c.meaning a)
      | .error h => p.halted c.grammar h
    | none =>
      if name = "help" then p.explain rest
      else .refuse (p.grammar.refusalText (.unknownCommand name))

end Program

end PeerProbe.Command
