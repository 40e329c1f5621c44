import Backmap.Command.Console
import Backmap.Proofs.Command.Stages
import Backmap.Proofs.Json.RoundTrip

/-!
# Exit codes

A command that reports diagnostics exits with 0 or 1 if it is complete, by whether there were any, and with 2 if it
failed at any stage, be it in reading its input or in writing to any of its outputs. The tally of a complete report
counts the diagnostics of each severity.
-/

namespace Backmap

/-! ## Tallies -/

namespace Tally

/-- How many diagnostics of a severity were counted. -/
def count (t : Tally) : Severity → Nat
  | .error => t.error
  | .warning => t.warning
  | .information => t.information
  | .hint => t.hint

variable {t : Tally}

theorem count_record (recorded severity : Severity) :
    (t.record recorded).count severity = t.count severity + if recorded = severity then 1 else 0 := by
  cases recorded <;> cases severity <;> rfl

theorem total_record (recorded : Severity) : (t.record recorded).total = t.total + 1 := by
  cases recorded <;> simp only [record, total] <;> omega

theorem count_foldl (ds : List Diagnostic) (severity : Severity) :
    (ds.foldl (fun t d => t.record d.severity) t).count severity =
      t.count severity + ds.countP (·.severity = severity) := by
  induction ds generalizing t with
  | nil => rfl
  | cons d ds ih =>
      rw [List.foldl_cons, ih, count_record, List.countP_cons]
      simp only [decide_eq_true_eq]
      omega

theorem total_foldl (ds : List Diagnostic) :
    (ds.foldl (fun t d => t.record d.severity) t).total = t.total + ds.length := by
  induction ds generalizing t with
  | nil => rfl
  | cons d ds ih =>
      rw [List.foldl_cons, ih, total_record, List.length_cons]
      omega

theorem count_ofDiagnostics (ds : List Diagnostic) (severity : Severity) :
    (ofDiagnostics ds).count severity = ds.countP (·.severity = severity) := by
  have hnone : ({} : Tally).count severity = 0 := by cases severity <;> rfl
  rw [ofDiagnostics, count_foldl, hnone, Nat.zero_add]

theorem total_ofDiagnostics (ds : List Diagnostic) : (ofDiagnostics ds).total = ds.length := by
  have hnone : ({} : Tally).total = 0 := rfl
  rw [ofDiagnostics, total_foldl, hnone, Nat.zero_add]

end Tally

variable {σ : Type}

/-- In every format, and whether or not a fault ends it, a report has the tally of its diagnostics. -/
theorem Report.render_tally (read : Reader (StateM σ)) (palette : Palette) (format : Format) (tool : Tool)
    (groups : Groups) (w : σ) :
    ((render read palette format tool groups).run w).1.tally = .ofDiagnostics groups.diagnostics := by
  cases format with
  | plain => rfl
  | json => rfl
  | terminal => rfl
  | sarif =>
      unfold render
      dsimp only
      split <;> rfl

namespace Command

/-! ## The code of a course -/

variable {host : Host (StateM σ)} {cwd : String} {environment : List (String × String)} {args : List String}
  {verbosity : Nat} {s : Setting} {name : Name} {p : Parsed} {gather : Program (StateM σ) Groups} {w w' : σ}
  {course : Course (Groups × Report)}

/-- The exit code that a command gives, or that its early end is concluded with. -/
def concluded (host : Host (StateM σ)) (level : Log.Level) : Except Ending Nat × σ → Nat × σ
  | (.ok code, w) => (code, w)
  | (.error e, w) => (conclude host level e).run w

theorem run_of_readCall (hcall : readCall host.dashes args = .ok ⟨verbosity, some (name, p)⟩) :
    (run host cwd environment args).run w = concluded host (levelOf verbosity)
      ((name.run host ⟨cwd, environment, levelOf verbosity⟩ p).run.run w) := by
  unfold run
  rw [hcall]
  dsimp only
  rw [StateT.run_bind]
  rcases (name.run host ⟨cwd, environment, levelOf verbosity⟩ p).run.run w with ⟨_ | _, w'⟩ <;> rfl

theorem run_of_gathered (hcall : readCall host.dashes args = .ok ⟨verbosity, some (name, p)⟩)
    (hname : name.gathered? host ⟨cwd, environment, levelOf verbosity⟩ p = some gather) :
    (run host cwd environment args).run w = concluded host (levelOf verbosity)
      ((gather >>= emit host ⟨cwd, environment, levelOf verbosity⟩ p).run.run w) := by
  rw [run_of_readCall hcall]
  cases name with
  | reconcile => cases hname; rfl
  | diagnose => cases hname; rfl
  | directives => cases hname
  | shadow => cases hname

theorem run_of_reports (hcall : readCall host.dashes args = .ok ⟨verbosity, some (name, p)⟩)
    (hname : name.gathered? host ⟨cwd, environment, levelOf verbosity⟩ p = some gather)
    (h : Reports host ⟨cwd, environment, levelOf verbosity⟩ p gather w course w') :
    (run host cwd environment args).run w =
      concluded host (levelOf verbosity) (course.result fun x => codeOf x.2, w') := by
  rw [run_of_gathered hcall hname, h.run_eq]

theorem Reports.tally_eq {groups : Groups} {report : Report}
    (h : Reports host s p gather w (.complete (groups, report)) w') :
    report.tally = .ofDiagnostics groups.diagnostics := by
  cases h with
  | completed hdraft hwrite hfault htell =>
      obtain ⟨-, -, -, hrender⟩ := hdraft
      rw [← Report.render_tally, hrender]

theorem codeOf_eq {groups : Groups} {report : Report} (h : report.tally = .ofDiagnostics groups.diagnostics) :
    codeOf report = if groups.diagnostics = [] then 0 else 1 := by
  rw [codeOf, h, Tally.total_ofDiagnostics]
  simp only [List.length_eq_zero_iff]

end Command

/-! ## A small run -/

namespace Checker

def finding (line : Int) : Json :=
  .obj [("range", .obj [("start", .obj [("line", .int line)])]), ("message", .str "m")]

def findings (lines : List Int) : String := (Json.arr (lines.map finding)).write Json.oneLine

def found (file : String) (line : Int) : Diagnostic :=
  { file, line, message := "m", severity := .information, column := some 0 }

theorem elements_finding (file : String) (lines : List Int) (done : List Diagnostic) :
    (elements file (lines.map finding) done : Task (StateM σ) _) = pure (done.reverse ++ lines.map (found file)) := by
  induction lines generalizing done with
  | nil => simp [elements]
  | cons line lines ih =>
      have helement : (element file (finding line)).run = .ok (.ok (found file line)) := rfl
      simp [elements, helement, ih]

theorem read_findings {lines : List Int} (h : ∀ line ∈ lines, Numeral.fits line = true) :
    Json.read .usual (findings lines) = .ok (.arr (lines.map finding)) := by
  have hexact : Json.ExactItems (lines.map finding) := by
    induction lines with
    | nil => trivial
    | cons line lines ih =>
        obtain ⟨hline, hlines⟩ := List.forall_mem_cons.mp h
        exact ⟨by simp [finding, Json.Exact, Json.ExactMembers, hline], ih hlines⟩
  have hdepth : Json.depthItems (lines.map finding) ≤ 3 := by
    clear h hexact
    induction lines with
    | nil => decide
    | cons line lines ih => exact Nat.max_le.mpr ⟨Nat.le_refl 3, ih⟩
  exact Json.read_write Json.oneLine_spaced hexact (Nat.le_trans (Nat.succ_le_succ hdepth) (by decide))

end Checker

namespace Command

/-- A console with findings of the checker on standard input. -/
def Console.sample (lines : List Int) (nodes : List (List String × Workspace.Node)) : Console :=
  { workspace := ⟨["w"], (["w"], .folder) :: nodes⟩, input := some (Checker.findings lines) }

theorem diagnosed_sample {lines : List Int} (h : ∀ line ∈ lines, Numeral.fits line = true) (hne : lines ≠ [])
    (nodes : List (List String × Workspace.Node)) {s : Setting} (hcwd : s.cwd = "/w") {p : Parsed}
    (hoperands : p.operands = some []) (hfile : p.value? "--file" = some (.text "a.go")) :
    (diagnosed Console.host s p).run.run (.sample lines nodes) =
      (.ok [("/w/a.go", lines.map (Checker.found "/w/a.go"))],
        { Console.sample lines nodes with input := some "" }) := by
  have hread : (readInput Console.host s ((p.operands.getD []).head?) "diagnose output").run.run (.sample lines nodes) =
      (.ok (Checker.findings lines), { Console.sample lines nodes with input := some "" }) := by
    rw [hoperands]
    rfl
  generalize { Console.sample lines nodes with input := some "" } = c at hread ⊢
  have hneeded : (needed? .path (p.value? "--file") : Program (StateM Console) _).run.run c =
      (.ok (some "a.go"), c) := by
    rw [hfile]
    rfl
  have hpath : Path.normalize s.cwd ((some "a.go").getD "") = "/w/a.go" := by
    rw [hcwd]
    rfl
  have hparse : (Checker.parse .usual (some (Checker.findings lines)) "/w/a.go" : Task (StateM Console) _) =
      pure (lines.map (Checker.found "/w/a.go")) := by
    rw [Checker.parse, Checker.read_findings h]
    exact Checker.elements_finding _ _ _
  have hempty : (lines.map (Checker.found "/w/a.go")).isEmpty = false := by simpa using hne
  have hperform : (perform Console.host s
        (Checker.parse Console.host.machine.json (some (Checker.findings lines)) "/w/a.go")).run.run c =
      (.ok (lines.map (Checker.found "/w/a.go")), c) := by
    rw [show Console.host.machine.json = .usual from rfl, hparse]
    rfl
  rw [diagnosed, Program.run_bind_ok hread, Program.run_bind_ok hneeded, hpath]
  dsimp only
  rw [Program.run_bind_ok hperform, hempty]
  rfl

/-- What `diagnose --file a.go` says, with other options behind it. -/
def Parsed.sample (others : List (String × Value)) : Parsed :=
  { values := ("--file", .text "a.go") :: others, operands := some [] }

theorem readCall_sample : readCall .kept ["diagnose", "--file", "a.go"] = .ok ⟨0, some (.diagnose, .sample [])⟩ := by
  rfl

/-! ## The code of a run -/

variable {args : List String} {verbosity : Nat} {name : Name} {p : Parsed} {gather : Program (StateM σ) Groups}

end Command

end Backmap
