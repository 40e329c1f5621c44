import Backmap.Diagnostic
import Backmap.Json.Reader
import Backmap.Log

/-!
# Output of the contract checker

The checker prints a JSON array of diagnostics in the form that editors use. Malformed elements are left out one
by one.
-/

namespace Backmap.Checker

/-- Why an element gives no diagnostic. -/
inductive Defect where
  /-- A key that is not there. -/
  | key (name : String)
  /-- A value of a kind that has no such part, or is no number. -/
  | kind (text : String)
  | number (text : String)
  deriving DecidableEq, Repr

def Defect.message : Defect → String
  | key name => Text.quoted name
  | kind text => text
  | number text => text

/-- An element ends in a diagnostic, in a defect of its own, or in a fault that ends the whole reading. -/
abbrev Attempt := ExceptT Defect (Except Fault)

def kindName : Json → String
  | .null => "NoneType"
  | .bool _ => "bool"
  | .int _ => "int"
  | .float _ => "float"
  | .str _ => "str"
  | .arr _ => "list"
  | .obj _ => "dict"

/-- The part of a value under a key. -/
def part (key : String) : Json → Attempt Json
  | .obj members =>
    match Json.find? key members with
    | some v => pure v
    | none => throw (.key key)
  | .str _ => throw (.kind "string indices must be integers, not 'str'")
  | .arr _ => throw (.kind "list indices must be integers or slices, not str")
  | v => throw (.kind s!"'{kindName v}' object is not subscriptable")

/-- The part of an object under a key, if it is there. -/
def optional (key : String) : Json → Attempt (Option Json)
  | .obj members => pure (Json.find? key members)
  | v => throw (.kind s!"'{kindName v}' object has no attribute 'get'")

/-- A value as a whole number: fractions are cut, truth values are zero or one, texts are read. -/
def wholeNumber : Json → Attempt Int
  | .int n => pure n
  | .bool b => pure b.toNat
  | .float (.finite negative m e) => pure (Binary64.truncate negative m e)
  | .float .nan => throw (.number "cannot convert float NaN to integer")
  | .float (.infinite _) => ExceptT.mk (.error .infinite)
  | .str s =>
    match Numeral.read s with
    | .ok n => pure n
    | .error e => throw (.number e.message)
  | v => throw (.kind
      s!"int() argument must be a string, a bytes-like object or a real number, not '{kindName v}'")

/-- The diagnostic of one element. -/
def element (file : String) (item : Json) : Attempt Diagnostic := do
  let start ← part "start" (← part "range" item)
  let line ← wholeNumber (← part "line" start)
  let column ← wholeNumber ((← optional "character" start).getD (.int 0))
  let message := (← part "message" item).display
  let severity := Severity.ofCode ((← optional "severity" item).getD .null)
  let source := (← optional "source" item).getD .null
  let code := (← optional "code" item).getD .null
  pure
    { file, line, message, severity, code
      source := if source.isTruthy then source else .str "inco"
      column := some column }

def channel : String := "incodiag.diagnostic"

/-- The diagnostics of elements, up to the first fault. -/
def elements {m : Type → Type} [Monad m] (file : String) :
    List Json → List Diagnostic → Task m (List Diagnostic)
  | [], done => pure done.reverse
  | item :: rest, done =>
    match (element file item).run with
    | .error f => throw f
    | .ok (.ok d) => elements file rest (d :: done)
    | .ok (.error defect) => do
      Task.log .debug channel s!"Skipping malformed diagnose entry {item.quoted}: {defect.message}"
      elements file rest done

/-- Reads the output of the checker for a file. Without output, or with output that is no JSON array, there are
no diagnostics. -/
def parse {m : Type → Type} [Monad m] (dialect : Json.Dialect) (output : Option String) (file : String) :
    Task m (List Diagnostic) :=
  let notJson : Task m (List Diagnostic) := do
    Task.log .debug channel s!"inco diagnose output for {file} is not JSON"
    pure []
  match output with
  | none => notJson
  | some text =>
    match Json.read dialect text with
    | .error (.malformed _ _ _ _) => notJson
    | .error (.number e) => throw (.numeral e)
    | .error (.tooDeep container) => throw (.tooDeep container)
    | .ok (.arr items) => elements file items []
    | .ok _ => pure []

end Backmap.Checker
