import Backmap.Proofs.Report.JsonLines
import Mathlib.Data.List.Forall2

/-!
# SARIF reports

A report in SARIF is one document with one run. Its results and the lines of a report in JSON are two accounts of the
same diagnostics: they differ in how places are counted, in what stands for an absent code, and in the names of the
severities. What both come to is a finding.
-/

namespace Backmap

/-! ## Looking into a document -/

namespace Json

def member? (key : String) : Json → Option Json
  | obj members => find? key members
  | _ => none

/-- The item of an array that has no other. -/
def only? : Json → Option Json
  | arr [v] => some v
  | _ => none

def text? : Json → Option String
  | str s => some s
  | _ => none

def number? : Json → Option Int
  | int n => some n
  | _ => none

end Json

def Severity.ofLabel? (label : String) : Option Severity := all.find? (·.label == label)

theorem Severity.ofLabel?_label (s : Severity) : ofLabel? s.label = some s := by
  cases s <;> decide

namespace Sarif

/-- What is said of one diagnostic, in the terms of SARIF. -/
structure Finding where
  uri : String
  text : String
  startLine : Int
  startColumn : Option Int
  rule : String
  level : String
  deriving DecidableEq, Repr

namespace Finding

/-- What a result of a document says. -/
def ofResult? (result : Json) : Option Finding := do
  let place ← (← (← result.member? "locations").only?).member? "physicalLocation"
  let region ← place.member? "region"
  let uri ← (← (← place.member? "artifactLocation").member? "uri").text?
  let text ← (← (← result.member? "message").member? "text").text?
  let startLine ← (← region.member? "startLine").number?
  let startColumn ← (region.member? "startColumn").mapM Json.number?
  let rule ← (← result.member? "ruleId").text?
  let level ← (← result.member? "level").text?
  pure { uri, text, startLine, startColumn, rule, level }

/-- What a line of a report in JSON says. Its places count from zero, and it need not have a column or a code. -/
def ofRecord? (record : Json) : Option Finding := do
  let uri ← (← record.member? "file").text?
  let text ← (← record.member? "message").text?
  let line ← (← record.member? "line").number?
  let column ← (record.member? "column").mapM Json.number?
  let rule ← (← (record.member? "code").or (record.member? "source")).text?
  let severity ← Severity.ofLabel? (← (← record.member? "severity").text?)
  pure { uri, text, startLine := line + 1, startColumn := column.map (· + 1), rule, level := severity.level }

end Finding

def results? (document : Json) : Option (List Json) :=
  match (document.member? "runs").bind fun runs => runs.only?.bind (·.member? "results") with
  | some (.arr results) => some results
  | _ => none

/-- A record and a result that say the same. -/
def Agree (record result : Json) : Prop :=
  ∃ finding, Finding.ofRecord? record = some finding ∧ Finding.ofResult? result = some finding

end Sarif

namespace Diagnostic

variable {d : Diagnostic}

theorem Presentable.exists_rule (h : d.Presentable) :
    ∃ rule, (if d.code.isTruthy then d.code else d.source) = .str rule := by
  split
  · next htruthy =>
    rcases h.code with hcode | hcode
    · rw [hcode] at htruthy
      cases htruthy
    · exact hcode
  · exact h.source

theorem ofRecord?_json {rule : String} (h : (if d.code.isTruthy then d.code else d.source) = .str rule) :
    Sarif.Finding.ofRecord? d.json =
      some ⟨d.file, d.message, d.line + 1, d.column.map (· + 1), rule, d.severity.level⟩ := by
  rw [json, members]
  cases htruthy : d.code.isTruthy with
  | true =>
      rw [if_pos htruthy] at h
      cases d.column <;>
        simp [Sarif.Finding.ofRecord?, h, Json.member?, Json.find?, Json.text?, Json.number?, Severity.ofLabel?_label]
  | false =>
      rw [if_neg (Bool.eq_false_iff.mp htruthy)] at h
      cases d.column <;>
        simp [Sarif.Finding.ofRecord?, h, Json.member?, Json.find?, Json.text?, Json.number?, Severity.ofLabel?_label]

theorem ofResult?_result {rule : String} (h : (if d.code.isTruthy then d.code else d.source) = .str rule) :
    Sarif.Finding.ofResult? (Sarif.result d) =
      some ⟨d.file, d.message, d.line + 1, d.column.map (· + 1), rule, d.severity.level⟩ := by
  rw [Sarif.result, h, Sarif.region]
  cases d.column <;>
    simp [Sarif.Finding.ofResult?, Json.member?, Json.find?, Json.text?, Json.number?, Json.only?]

theorem Presentable.agree (h : d.Presentable) : Sarif.Agree d.json (Sarif.result d) := by
  obtain ⟨rule, hrule⟩ := h.exists_rule
  exact ⟨_, ofRecord?_json hrule, ofResult?_result hrule⟩

end Diagnostic

/-! ## Documents -/

namespace Sarif

variable {d : Diagnostic} {ds : List Diagnostic}

theorem exact_result (h : d.Presentable) : (result d).Exact := by
  obtain ⟨rule, hrule⟩ := h.exists_rule
  have hline := h.fits_line
  rw [result, hrule, region]
  cases hcolumn : d.column with
  | none => simp [Json.Exact, Json.ExactMembers, Json.ExactItems, hline]
  | some c => simp [Json.Exact, Json.ExactMembers, Json.ExactItems, hline, h.fits_column c hcolumn]

theorem depth_result (h : d.Presentable) : (result d).depth = 5 := by
  obtain ⟨rule, hrule⟩ := h.exists_rule
  rw [result, hrule, region]
  cases d.column <;> simp [Json.depth, Json.depthMembers, Json.depthItems]

theorem exactItems_results (h : ∀ d ∈ ds, d.Presentable) : Json.ExactItems (ds.map result) := by
  induction ds with
  | nil => trivial
  | cons d ds ih =>
      obtain ⟨hd, hds⟩ := List.forall_mem_cons.mp h
      exact ⟨exact_result hd, ih hds⟩

theorem depthItems_results (h : ∀ d ∈ ds, d.Presentable) : Json.depthItems (ds.map result) ≤ 5 := by
  induction ds with
  | nil => exact Nat.zero_le 5
  | cons d ds ih =>
      obtain ⟨hd, hds⟩ := List.forall_mem_cons.mp h
      exact Nat.max_le.mpr ⟨Nat.le_of_eq (depth_result hd), ih hds⟩

theorem exact_document (h : ∀ d ∈ ds, d.Presentable) (tool version : String) : (document tool version ds).Exact := by
  simp [document, Json.Exact, Json.ExactMembers, Json.ExactItems, exactItems_results h]

theorem depth_document (h : ∀ d ∈ ds, d.Presentable) (tool version : String) :
    (document tool version ds).depth ≤ 9 := by
  have hresults := depthItems_results h
  simp only [document, Json.depth, Json.depthMembers, Json.depthItems]
  omega

theorem results?_document (tool version : String) (ds : List Diagnostic) :
    results? (document tool version ds) = some (ds.map result) := rfl

end Sarif

/-! ## Reports -/

namespace Report

variable {m : Type → Type} [Monad m] {dialect : Json.Dialect} {groups : Groups}

theorem render_sarif (read : Reader m) (palette : Palette) (tool : Tool) (h : ∀ d ∈ groups.diagnostics, d.Presentable) :
    render read palette .sarif tool groups =
      pure ⟨(Sarif.document tool.name tool.version groups.diagnostics).write Json.indented ++ "\n", none,
        .ofDiagnostics groups.diagnostics⟩ :=
  if_pos (Sarif.exact_document h tool.name tool.version).fits

theorem read_sarif (tool : Tool) (h : ∀ d ∈ groups.diagnostics, d.Presentable) (hroom : 9 ≤ dialect.room) :
    Json.read dialect ((Sarif.document tool.name tool.version groups.diagnostics).write Json.indented ++ "\n") =
      .ok (Sarif.document tool.name tool.version groups.diagnostics) :=
  Json.read_write_append Json.indented_spaced (Sarif.exact_document h tool.name tool.version)
    (Nat.le_trans (Sarif.depth_document h tool.name tool.version) hroom) ['\n'] (List.forall_mem_singleton.mpr rfl)

def lintGroups : Groups :=
  [("a", [⟨"a\n", 7, "\u2028", .hint, .str "s", none, .str ""⟩]),
    ("b", [⟨"b", 3, "𝔸", .error, .str "", some 2, .str "E"⟩])]

/-- One diagnostic, in a line counted from zero. -/
def oneGroup (line : Int) : Groups := [("a.go", [{ file := "a.go", line, message := "m" }])]

theorem render_oneGroup {line : Int} (hshort : Numeral.fits (line + 1) = true) (hlong : Numeral.fits line = false) :
    render (m := Id) (fun _ => .ok .silent) .plain .json {} (oneGroup line) =
      ⟨"", some .numberTooLong, { error := 1 }⟩ ∧
    ∃ sarif, render (m := Id) (fun _ => .ok .silent) .plain .sarif {} (oneGroup line) =
      ⟨sarif, none, { error := 1 }⟩ := by
  have h : ∀ d ∈ (oneGroup line).diagnostics, d.Presentable := by
    simp only [oneGroup, Groups.diagnostics, List.flatMap_cons, List.flatMap_nil, List.append_nil,
      List.forall_mem_singleton]
    exact ⟨⟨_, rfl⟩, .inl rfl, by simp [Diagnostic.fits, hshort]⟩
  refine ⟨?_, _, render_sarif (m := Id) _ _ _ h⟩
  have hjson : (Diagnostic.json { file := "a.go", line, message := "m" }).fits = false := by
    simp [Diagnostic.json, Diagnostic.members, Json.fits, Json.fitMembers, hlong]
  simp only [render, oneGroup, Groups.diagnostics, List.flatMap_cons, List.flatMap_nil, List.append_nil, lineByLine,
    hjson, Bool.false_eq_true, if_false]
  rfl

end Report

end Backmap
