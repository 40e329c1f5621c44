import Backmap.Batch
import Backmap.Report.Sarif
import Backmap.Report.Tally
import Backmap.Report.Terminal

/-!
# Reports

Diagnostics in one of four formats. A fault ends a report; what was written before it stays written.
-/

namespace Backmap

/-- The forms of a report: lines of text, text with source lines, JSON objects by line, a SARIF document. -/
inductive Format where
  | plain
  | terminal
  | json
  | sarif
  deriving DecidableEq, Repr

namespace Format

def all : List Format := [plain, terminal, json, sarif]

def name : Format → String
  | plain => "plain"
  | terminal => "terminal"
  | json => "json"
  | sarif => "sarif"

def ofName (name : String) : Except Fault Format :=
  match all.find? (·.name == name) with
  | some f => .ok f
  | none => .error (.format name)

end Format

/-- One line of plain text; line and column count from one. -/
def Diagnostic.plain (d : Diagnostic) : String :=
  let column := match d.column with
    | some c => ":" ++ Numeral.write (c + 1)
    | none => ""
  let code := if d.code.isTruthy then "/" ++ d.code.display else ""
  d.file ++ ":" ++ Numeral.write (d.line + 1) ++ column ++ ": " ++ d.severity.label ++ ": " ++ d.message ++
    " [" ++ d.source.display ++ code ++ "]"

/-- The object of a diagnostic on one line. -/
def Diagnostic.jsonLine (d : Diagnostic) : String := d.json.write Json.oneLine

/-- What a report wrote, and the fault that ended it, if one did. -/
structure Report where
  written : String
  fault : Option Fault
  tally : Tally

namespace Report

/-- Writes each diagnostic on a line of its own, up to the first that cannot be written. -/
def lineByLine (writable : Diagnostic → Bool) (line : Diagnostic → String) :
    List Diagnostic → String → String × Option Fault
  | [], written => (written, none)
  | d :: rest, written =>
    if writable d then lineByLine writable line rest (written ++ line d ++ "\n")
    else (written, some .numberTooLong)

/-- The tool that a SARIF document names. -/
structure Tool where
  name : String := "incodiag"
  version : String := "0.0.0"

def render {m : Type → Type} [Monad m] (read : Reader m) (palette : Palette) (format : Format) (tool : Tool)
    (groups : Groups) : m Report := do
  let ds := groups.diagnostics
  let tally := Tally.ofDiagnostics ds
  match format with
  | .plain =>
    let (written, fault) := lineByLine Diagnostic.fits Diagnostic.plain ds ""
    pure ⟨written, fault, tally⟩
  | .json =>
    let (written, fault) := lineByLine (·.json.fits) Diagnostic.jsonLine ds ""
    pure ⟨written, fault, tally⟩
  | .terminal =>
    let (written, fault) ← Terminal.write palette read ds [] ""
    pure ⟨written, fault, tally⟩
  | .sarif =>
    let document := Sarif.document tool.name tool.version ds
    if document.fits then pure ⟨document.write Json.indented ++ "\n", none, tally⟩
    else pure ⟨"", some .numberTooLong, tally⟩

end Report

end Backmap
