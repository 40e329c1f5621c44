import Backmap.Json.Display
import Backmap.Json.Writer
import Backmap.Fault

/-!
# Diagnostics

Places are those of an editor: lines and columns count from zero.
-/

namespace Backmap

inductive Severity where
  | error
  | warning
  | information
  | hint
  deriving DecidableEq, Repr

namespace Severity

def all : List Severity := [error, warning, information, hint]

def label : Severity → String
  | error => "error"
  | warning => "warning"
  | information => "information"
  | hint => "hint"

/-- The number that editors know a severity by. -/
def code : Severity → Nat
  | error => 1
  | warning => 2
  | information => 3
  | hint => 4

def colour : Severity → String
  | error => "red"
  | warning => "yellow"
  | information => "cyan"
  | hint => "white"

/-- The level of a SARIF result. -/
def level : Severity → String
  | error => "error"
  | warning => "warning"
  | information => "note"
  | hint => "note"

/-- Whether a value is the number `n`; a truth value counts as zero or one. -/
def isNumber (n : Nat) : Json → Bool
  | .int k => k == n
  | .float x => x.isInt n
  | .bool b => n == b.toNat
  | _ => false

/-- The severity that a value stands for; an unknown one is information. -/
def ofCode (v : Json) : Severity := (all.find? fun s => isNumber s.code v).getD information

end Severity

structure Diagnostic where
  file : String
  line : Int
  message : String
  severity : Severity := .error
  source : Json := .str "inco"
  column : Option Int := none
  /-- Null if there is none. -/
  code : Json := .null
  deriving Repr

namespace Diagnostic

/-- The members of the object that describes a diagnostic. -/
def members (d : Diagnostic) : List (String × Json) :=
  [("file", .str d.file), ("line", .int d.line), ("severity", .str d.severity.label),
    ("source", d.source), ("message", .str d.message)] ++
  (match d.column with
    | some c => [("column", .int c)]
    | none => []) ++
  (if d.code.isTruthy then [("code", d.code)] else [])

def json (d : Diagnostic) : Json := .obj d.members

/-- Whether the places that people see, which count from one, can be written. -/
def fits (d : Diagnostic) : Bool :=
  Numeral.fits (d.line + 1) && d.column.all fun c => Numeral.fits (c + 1)

/-- A short text; the line counts from one. -/
def summary (d : Diagnostic) : String :=
  d.file ++ ":" ++ Numeral.write (d.line + 1) ++ ": " ++ d.severity.label ++ ": " ++ d.message

end Diagnostic

end Backmap
