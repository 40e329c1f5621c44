import Backmap.Diagnostic

/-!
# Tallies

How many diagnostics of each severity a report holds.
-/

namespace Backmap

structure Tally where
  error : Nat := 0
  warning : Nat := 0
  information : Nat := 0
  hint : Nat := 0
  deriving DecidableEq, Repr

namespace Tally

def record (t : Tally) : Severity → Tally
  | .error => { t with error := t.error + 1 }
  | .warning => { t with warning := t.warning + 1 }
  | .information => { t with information := t.information + 1 }
  | .hint => { t with hint := t.hint + 1 }

def ofDiagnostics (ds : List Diagnostic) : Tally :=
  ds.foldl (fun t d => t.record d.severity) {}

def total (t : Tally) : Nat := t.error + t.warning + t.information + t.hint

/-- A number of things, left out if there are none. -/
def part (n : Nat) (one many : String) : List String :=
  if n = 0 then [] else if n = 1 then [s!"{n} {one}"] else [s!"{n} {many}"]

def summary (t : Tally) : String :=
  let parts := part t.error "error" "errors" ++ part t.warning "warning" "warnings" ++
    part t.information "info" "info" ++ part t.hint "hint" "hints"
  if parts = [] then "no diagnostics"
  else "; ".intercalate parts ++ s!" ({t.total} total)"

end Tally

end Backmap
