import Backmap.Command.Grammar
import Backmap.Report

/-!
# The program's command line
-/

namespace Backmap.Command

def program : String := "incodiag"

def programVersion : String := "0.1.0"

/-- Lines, each ended by a line feed. -/
def page (lines : List String) : String := String.join (lines.map (· ++ "\n"))

def mainHelp : String := page [
  "usage: incodiag [-h] [--version] [-v]",
  "                \x7breconcile,directives,shadow,diagnose\x7d ...",
  "",
  "Map compiler diagnostics from inco shadow files back onto the original Go",
  "sources.",
  "",
  "options:",
  "  -h, --help            show this help message and exit",
  "  --version             show program's version number and exit",
  "  -v, --verbose         Increase log verbosity (-v info, -vv debug).",
  "",
  "commands:",
  "  \x7breconcile,directives,shadow,diagnose\x7d",
  "    reconcile           Reconcile compiler output onto original sources.",
  "    directives          List @inco:/@if: directives.",
  "    shadow              Show the shadow file for a source.",
  "    diagnose            Render `inco diagnose` JSON output."]

def reconcileHelp : String := page [
  "usage: incodiag reconcile [-h] [--root ROOT] [--compile-root COMPILE_ROOT]",
  "                          [--max-snap-distance N]",
  "                          [--marker-token MARKER_TOKEN]",
  "                          [-f \x7bplain,terminal,json,sarif\x7d] [-o FILE]",
  "                          [OUTPUT]",
  "",
  "positional arguments:",
  "  OUTPUT                Saved compiler output (\"-\" or omit for stdin).",
  "",
  "options:",
  "  -h, --help            show this help message and exit",
  "  --root ROOT           Workspace root (default: .).",
  "  --compile-root COMPILE_ROOT",
  "                        Directory the compiler ran in (default: the go.mod",
  "                        directory).",
  "  --max-snap-distance N",
  "                        Snap reported lines onto a directive at most N lines",
  "                        above.",
  "  --marker-token MARKER_TOKEN",
  "                        Positional-marker token in shadow files (default:",
  "                        //line).",
  "  -f \x7bplain,terminal,json,sarif\x7d, --format \x7bplain,terminal,json,sarif\x7d",
  "                        Output format (default: plain).",
  "  -o FILE, --output FILE",
  "                        Output file (\"-\" or omit for stdout)."]

def directivesHelp : String := page [
  "usage: incodiag directives [-h] [-o FILE] FILE [FILE ...]",
  "",
  "positional arguments:",
  "  FILE",
  "",
  "options:",
  "  -h, --help            show this help message and exit",
  "  -o FILE, --output FILE"]

def shadowHelp : String := page [
  "usage: incodiag shadow [-h] [--root ROOT] FILE",
  "",
  "positional arguments:",
  "  FILE",
  "",
  "options:",
  "  -h, --help   show this help message and exit",
  "  --root ROOT  Workspace root (default: .)."]

def diagnoseHelp : String := page [
  "usage: incodiag diagnose [-h] --file FILE [-f \x7bplain,terminal,json,sarif\x7d]",
  "                         [-o FILE]",
  "                         [JSON]",
  "",
  "positional arguments:",
  "  JSON",
  "",
  "options:",
  "  -h, --help            show this help message and exit",
  "  --file FILE           Source file the output is for.",
  "  -f \x7bplain,terminal,json,sarif\x7d, --format \x7bplain,terminal,json,sarif\x7d",
  "                        Output format (default: plain).",
  "  -o FILE, --output FILE",
  "                        Output file (\"-\" or omit for stdout)."]

/-- No value is objected to. -/
def anyValue : Effect := .keep fun _ => none

/-- Values that are one of some words. -/
def oneOf (words : List String) : Effect := .keep fun value =>
  if words.contains value then none
  else
    let shown := Text.quoted value
    let words := ", ".intercalate (words.map Text.quoted)
    some s!"invalid choice: {shown} (choose from {words})"

/-- Values that are whole numbers. -/
def wholeNumber : Effect := .keep fun value =>
  match Numeral.read value with
  | .ok _ => none
  | .error _ =>
    let shown := Text.quoted value
    some s!"invalid int value: {shown}"

def helpFlag : Flag := { names := ["-h", "--help"], effect := .help }

def formatFlag : Flag := { names := ["-f", "--format"], effect := oneOf (Format.all.map Format.name) }

def outputFlag : Flag := { names := ["-o", "--output"], effect := anyValue }

def rootFlag : Flag := { names := ["--root"], effect := anyValue }

inductive Name where
  | reconcile
  | directives
  | shadow
  | diagnose
  deriving DecidableEq, Repr

namespace Name

def all : List Name := [reconcile, directives, shadow, diagnose]

def text : Name → String
  | reconcile => "reconcile"
  | directives => "directives"
  | shadow => "shadow"
  | diagnose => "diagnose"

def grammar : Name → Grammar
  | reconcile =>
    { program := "incodiag reconcile"
      help := reconcileHelp
      flags := [helpFlag, rootFlag,
        { names := ["--compile-root"], effect := anyValue },
        { names := ["--max-snap-distance"], effect := wholeNumber },
        { names := ["--marker-token"], effect := anyValue },
        formatFlag, outputFlag]
      operands := .optional
      operandTitle := "OUTPUT" }
  | directives =>
    { program := "incodiag directives"
      help := directivesHelp
      flags := [helpFlag, outputFlag]
      operands := .many
      operandTitle := "FILE" }
  | shadow =>
    { program := "incodiag shadow"
      help := shadowHelp
      flags := [helpFlag, rootFlag]
      operands := .one
      operandTitle := "FILE" }
  | diagnose =>
    { program := "incodiag diagnose"
      help := diagnoseHelp
      flags := [helpFlag, { names := ["--file"], effect := anyValue, required := true }, formatFlag, outputFlag]
      operands := .optional
      operandTitle := "JSON" }

end Name

def mainGrammar : Grammar :=
  { program := program
    help := mainHelp
    flags := [helpFlag, { names := ["--version"], effect := .version },
      { names := ["-v", "--verbose"], effect := .count }]
    operands := .command
    operandTitle := "\x7breconcile,directives,shadow,diagnose\x7d" }

/-- A command line that can be carried out: how much is to be told, and the command, if there is one. -/
structure Call where
  verbosity : Nat
  command : Option (Name × Parsed)

/-- Reads a command line. Options of the program come before the command; what neither has a place for is told
last. -/
def readCall (dashes : Dashes) (args : List String) : Except Stop Call := do
  let p ← mainGrammar.read dashes args
  let verbosity := p.count "--verbose"
  let refuse (extras : List String) : Except Stop Unit :=
    if extras = [] then .ok ()
    else
      let extras := " ".intercalate extras
      .error (.misuse mainGrammar s!"unrecognized arguments: {extras}")
  match p.operands with
  | some (word :: rest) =>
    match Name.all.find? (·.text == word) with
    | none =>
      let shown := Text.quoted word
      let words := ", ".intercalate (Name.all.map fun n => Text.quoted n.text)
      .error (.misuse mainGrammar
        s!"argument {mainGrammar.operandTitle}: invalid choice: {shown} (choose from {words})")
    | some name =>
      let q ← name.grammar.read dashes rest
      refuse (p.extras ++ q.extras)
      .ok ⟨verbosity, some (name, q)⟩
  | _ =>
    refuse p.extras
    .ok ⟨verbosity, none⟩

end Backmap.Command
