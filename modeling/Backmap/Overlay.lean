import Backmap.Log
import Backmap.Machine
import Backmap.Path.Tidy
import Backmap.Settings
import Backmap.Substitution

/-!
# Overlay documents

The generator leaves the substitution table in a JSON document, in its cache folder next to the module file.
The document is advisory: where it is missing or broken, there is simply no table.
-/

namespace Backmap.Overlay

def channel : String := "incodiag.overlay"

/-- How a document that is no JSON is told. -/
def jsonProblem (reason : Json.Reason) (line column position : Nat) : String :=
  s!"invalid JSON: {reason.text}: line {line} column {column} (char {position})"

/-- The entries of a `Replace` object, if all its values are strings. -/
def entries? (members : List (String × Json)) : Option (List (String × String)) :=
  members.mapM fun (k, v) => match v with
    | .str s => some (k, s)
    | _ => none

/-- Reads a document; `name` is what it goes by in messages. -/
def table (dialect : Json.Dialect) (cwd text name : String) : Except Fault Substitution :=
  match Json.read dialect text with
  | .error (.number e) => .error (.numeral e)
  | .error (.tooDeep container) => .error (.tooDeep container)
  | .error (.malformed reason line column position) =>
    .error (.overlay name (jsonProblem reason line column position))
  | .ok (.obj members) =>
    match Json.find? "Replace" members with
    | some (.obj replace) =>
      match entries? replace with
      | some entries => .ok (.ofEntries cwd entries)
      | none => .error (.overlay name "'Replace' must map strings to strings")
    | _ => .error (.overlay name "missing 'Replace' object")
  | .ok _ => .error (.overlay name "missing 'Replace' object")

variable {m : Type → Type} [Monad m]

/-- The first of some folders that holds a file called `marker`. -/
def firstHolding (machine : Machine m) (marker : String) : List Path.Tidy → Task m (Option Path.Tidy)
  | [] => pure none
  | folder :: rest => do
    if ← Task.lift (machine.isFile (folder.join marker).text) then pure (some folder)
    else firstHolding machine marker rest

/-- The folder of a module: `root`, or the first of its folders by name, that holds a file called `marker`. -/
def findModule (machine : Machine m) (root marker : String) : Task m (Option Path.Tidy) := do
  let root := Path.Tidy.ofString root
  if ← Task.lift (machine.isFile (root.join marker).text) then pure (some root)
  else
    match ← (Task.lift (machine.folders root.text)).attempt with
    | .error (.os e) =>
      Task.log .debug channel s!"Cannot list {root.text}: {e.message}"
      pure none
    | .error f => throw f
    | .ok names => firstHolding machine marker ((names.mergeSort (· ≤ ·)).map root.join)

/-- Where the document of the module under `root` is to be. -/
def path (machine : Machine m) (root : String) (s : Settings) : Task m Path.Tidy := do
  let folder ← findModule machine root s.moduleMarker
  pure (((folder.getD (Path.Tidy.ofString root)).join s.cacheDir).join s.overlayFile)

/-- Loads the table; a document that cannot be used is a fault. -/
def loadStrict (machine : Machine m) (cwd root : String) (s : Settings) : Task m Substitution := do
  let path ← path machine root s
  let reading ← Task.lift (machine.read path.text)
  match reading.text? with
  | none => throw (.overlay path.text s!"cannot read: {reading.reason}")
  | some text => ExceptT.mk (pure (table machine.json cwd text path.text))

/-- Loads the table, if there is one that can be used. -/
def load (machine : Machine m) (cwd root : String) (s : Settings) : Task m (Option Substitution) := do
  let path ← path machine root s
  if ← Task.lift (machine.isFile path.text) then
    match ← (loadStrict machine cwd root s).attempt with
    | .ok table =>
      Task.log .debug channel s!"Loaded overlay {path.text} with {table.size} entries"
      pure (some table)
    | .error (.overlay name reason) =>
      let f := Fault.overlay name reason
      Task.log .warning channel s!"[malformed-input] ignoring overlay: {f.message}"
      pure none
    | .error f => throw f
  else
    Task.log .debug channel s!"[advisory-missing] no overlay at {path.text} (generator has not run?)"
    pure none

end Backmap.Overlay
