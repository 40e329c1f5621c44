import Backmap.Diagnostic

/-!
# SARIF documents
-/

namespace Backmap.Sarif

def version : String := "2.1.0"

def schema : String :=
  "https://raw.githubusercontent.com/oasis-tcs/sarif-spec/master/Schemata/sarif-schema-2.1.0.json"

/-- The place of a diagnostic; lines and columns count from one. -/
def region (d : Diagnostic) : Json :=
  .obj (("startLine", .int (d.line + 1)) ::
    match d.column with
    | some c => [("startColumn", .int (c + 1))]
    | none => [])

def result (d : Diagnostic) : Json :=
  .obj [
    ("ruleId", if d.code.isTruthy then d.code else d.source),
    ("level", .str d.severity.level),
    ("message", .obj [("text", .str d.message)]),
    ("locations", .arr [.obj [
      ("physicalLocation", .obj [
        ("artifactLocation", .obj [("uri", .str d.file)]),
        ("region", region d)])]])]

def document (tool toolVersion : String) (ds : List Diagnostic) : Json :=
  .obj [
    ("$schema", .str schema),
    ("version", .str version),
    ("runs", .arr [.obj [
      ("tool", .obj [("driver", .obj [("name", .str tool), ("version", .str toolVersion)])]),
      ("results", .arr (ds.map result))]])]

end Backmap.Sarif
