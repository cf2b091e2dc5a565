import PeerProbe.Command.Arguments

/-!
# Help texts

The help of a program or a command: what it is about, how it is called, and its commands, operands
and options in aligned columns.
-/

namespace PeerProbe.Command

/-- One line of help: what is explained, and the explanation. -/
structure HelpLine where
  subject : String
  text : String

/-- A block of help under a heading; without lines there is none. -/
def helpBlock (heading : String) (lines : List HelpLine) : String :=
  if lines.isEmpty then ""
  else
    let width := lines.foldl (fun w l => max w l.subject.length) 0
    "\n" ++ heading ++ ":\n" ++ String.join (lines.map fun l =>
      let gap := String.ofList (List.replicate (width + 2 - l.subject.length) ' ')
      "  " ++ l.subject ++ (if l.text.isEmpty then "" else gap ++ l.text) ++ "\n")

/-- The help of an option. -/
def OptionSpec.helpLine (o : OptionSpec) : HelpLine :=
  let short := match o.short with
    | some c => String.ofList ['-', c, ',', ' ']
    | none => "    "
  let values := if o.kind = .truth then " [possible values: true, false]" else ""
  ⟨short ++ o.label, o.help ++ values⟩

/-- The help of an operand. -/
def OperandSpec.helpLine (o : OperandSpec) : HelpLine := ⟨"<" ++ o.placeholder ++ ">", o.help⟩

namespace Grammar

/-- The options that every program and command has besides its own. -/
def commonOptions (g : Grammar) : List HelpLine :=
  ⟨"-h, --help", "Print help"⟩ :: (if g.versioned then [⟨"-V, --version", "Print version"⟩] else [])

/-- The commands, and the one that prints help. -/
def commandLines (g : Grammar) : List HelpLine :=
  if g.commands.isEmpty then []
  else (g.commands.map fun (name, text) => ⟨name, text⟩) ++
    [⟨"help", "Print this message or the help of the given subcommand(s)"⟩]

/-- The whole help. -/
def helpText (g : Grammar) : String :=
  g.about ++ "\n\nUsage: " ++ g.usage ++ "\n" ++
    helpBlock "Commands" g.commandLines ++
    helpBlock "Arguments" (g.operands.map OperandSpec.helpLine) ++
    helpBlock "Options" (g.options.map OptionSpec.helpLine ++ g.commonOptions)

/-- What is said about a refused command line. -/
def refusalText (g : Grammar) (e : UsageError) : String :=
  "error: " ++ e.message ++ "\n\nUsage: " ++ g.usage ++
    "\n\nFor more information, try '--help'.\n"

end Grammar

end PeerProbe.Command
