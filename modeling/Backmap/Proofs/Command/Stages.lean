import Backmap.Command.Run
import Backmap.Proofs.Batch.Run

/-!
# The stages of a command

A command that reports diagnostics gathers them, opens its output, writes the report and tells how many there are. Each
stage leaves as it is what the operations of the host do, and there are few ways in which it can end early.
-/

namespace Backmap

variable {σ α β : Type} {I : σ → Prop}

/-! ## What actions leave as it is -/

/-- Started in a state in `I`, the action ends in one. -/
def Preserves (I : σ → Prop) (x : StateM σ α) : Prop := ∀ w, I w → I (x.run w).2

theorem preserves_pure (a : α) : Preserves I (pure a) := fun _ hw => hw

theorem Preserves.bind {x : StateM σ α} {k : α → StateM σ β} (hx : Preserves I x) (hk : ∀ a, Preserves I (k a)) :
    Preserves I (x >>= k) := fun w hw => hk _ _ (hx w hw)

namespace Checker

open Backmap.Task

theorem elements_keeps (file : String) (items : List Json) (done : List Diagnostic) :
    Keeps I (elements file items done : Task (StateM σ) _) := by
  induction items generalizing done with
  | nil => exact keeps_pure _
  | cons item items ih =>
      unfold elements
      split
      · exact keeps_throw _
      · exact ih _
      · exact (ih _).logged

theorem parse_keeps (dialect : Json.Dialect) (output : Option String) (file : String) :
    Keeps I (parse dialect output file : Task (StateM σ) _) := by
  unfold parse
  cases output with
  | none => exact (keeps_pure _).logged
  | some text =>
      dsimp only
      split
      · exact (keeps_pure _).logged
      · exact keeps_throw _
      · exact keeps_throw _
      · exact elements_keeps _ _ _
      · exact keeps_pure _

end Checker

variable {read : Reader (StateM σ)}

theorem Terminal.sourceLines_preserves (hread : ∀ path, Preserves I (read path)) (path : String) (known : Sources) :
    Preserves I (sourceLines read path known) := by
  unfold sourceLines
  split
  · exact preserves_pure _
  · refine (hread path).bind fun r => ?_
    cases r with
    | error f => exact preserves_pure _
    | ok r => exact preserves_pure _

theorem Terminal.write_preserves (hread : ∀ path, Preserves I (read path)) (palette : Palette) (ds : List Diagnostic)
    (known : Sources) (written : String) : Preserves I (write palette read ds known written) := by
  induction ds generalizing known written with
  | nil => exact preserves_pure _
  | cons d ds ih =>
      unfold write
      split
      · exact preserves_pure _
      · refine (sourceLines_preserves hread _ _).bind fun x => ?_
        cases x with
        | error f => exact preserves_pure _
        | ok x => exact ih _ _

theorem Report.render_preserves (hread : ∀ path, Preserves I (read path)) (palette : Palette) (format : Format)
    (tool : Tool) (groups : Groups) : Preserves I (render read palette format tool groups) := by
  cases format with
  | plain => exact preserves_pure _
  | json => exact preserves_pure _
  | terminal => exact (Terminal.write_preserves hread _ _ _ _).bind fun _ => preserves_pure _
  | sarif =>
      unfold render
      dsimp only
      split
      · exact preserves_pure _
      · exact preserves_pure _

namespace Command

/-- Nothing but opening and writing its output takes a command out of `I`. -/
structure Host.Keeps (host : Host (StateM σ)) (I : σ → Prop) : Prop where
  machine : host.machine.Keeps I
  input : Preserves I host.input
  print : ∀ text, Preserves I (host.print text)
  tell : ∀ text, Preserves I (host.tell text)
  home : ∀ user, Preserves I (host.home user)
  resolve : ∀ path, Preserves I (host.resolve path)
  clock : Preserves I host.clock

theorem Host.keeps_true (host : Host (StateM σ)) : host.Keeps fun _ => True :=
  ⟨⟨fun _ _ _ => trivial, fun _ _ _ => trivial, fun _ _ _ => trivial⟩, fun _ _ => trivial, fun _ _ _ => trivial,
    fun _ _ _ => trivial, fun _ _ _ => trivial, fun _ _ _ => trivial, fun _ _ => trivial⟩

variable {host : Host (StateM σ)} {s : Setting} {p : Parsed}

theorem tellEntry_preserves (h : host.Keeps I) (level : Log.Level) (e : Log.Entry) :
    Preserves I (tellEntry host level e) := by
  unfold tellEntry
  split
  · exact h.clock.bind fun _ => h.tell _
  · exact preserves_pure _

theorem tellAll_preserves (h : host.Keeps I) (level : Log.Level) (entries : Log) :
    Preserves I (tellAll host level entries) := by
  unfold tellAll
  induction entries.toList with
  | nil => exact preserves_pure _
  | cons e rest ih => exact (tellEntry_preserves h level e).bind fun _ => ih

theorem conclude_preserves (h : host.Keeps I) (level : Log.Level) (e : Ending) :
    Preserves I (conclude host level e) := by
  unfold conclude
  split
  · exact preserves_pure _
  all_goals exact (tellEntry_preserves h level _).bind fun _ => preserves_pure _

/-! ## Ending early -/

/-- What ends a command early. That it is interrupted takes `P`. -/
inductive Ending.Failure (P : Prop) : Ending → Prop
  | fault (f : Fault) : Failure P (.fault f)
  | exit : Failure P (.exit 2)
  | interrupted (h : P) : Failure P .interrupted

theorem Ending.Failure.conclude_fst {e : Ending} (h : e.Failure False) (level : Log.Level) (w : σ) :
    ((conclude host level e).run w).1 = 2 := by
  cases h with
  | fault f => cases f <;> rfl
  | exit => rfl
  | interrupted h => cases h

theorem failure_of_mapError {P : Prop} {r : Except Fault α} {e : Ending} (h : r.mapError .fault = .error e) :
    e.Failure P := by
  cases r with
  | ok a => cases h
  | error f =>
      cases h
      exact .fault f

namespace Program

variable {P : Prop} {x : Program (StateM σ) α} {k : α → Program (StateM σ) β} {w w' : σ}

theorem run_bind_ok {a : α} (h : x.run.run w = (.ok a, w')) : (x >>= k).run.run w = (k a).run.run w' := by
  simp only [ExceptT.run_bind, StateT.run_bind, h]
  rfl

theorem run_bind_error {e : Ending} (h : x.run.run w = (.error e, w')) : (x >>= k).run.run w = (.error e, w') := by
  simp only [ExceptT.run_bind, StateT.run_bind, h]
  rfl

theorem run_lift {y : StateM σ α} {a : α} (h : y.run w = (a, w')) :
    (ExceptT.lift y : Program (StateM σ) α).run.run w = (.ok a, w') := by
  have hlift : (ExceptT.lift y : Program (StateM σ) α).run.run w = (.ok (y.run w).1, (y.run w).2) := rfl
  rw [hlift, h]

theorem run_ask {y : StateM σ (Except Fault α)} {r : Except Fault α} (h : y.run w = (r, w')) :
    (ask y).run.run w = (r.mapError .fault, w') := by
  have hask : (ask y).run.run w = ((y.run w).1.mapError .fault, (y.run w).2) := rfl
  rw [hask, h]

/-- Started in `w`, the program ends in a state in `I`, and it ends early only because of a failure. -/
def Safe (I : σ → Prop) (P : Prop) (x : Program (StateM σ) α) (w : σ) : Prop :=
  I (x.run.run w).2 ∧ ∀ e, (x.run.run w).1 = .error e → e.Failure P

theorem safe_pure {a : α} (hw : I w) : Safe I P (pure a : Program (StateM σ) α) w := ⟨hw, nofun⟩

theorem safe_throw {e : Ending} (he : e.Failure P) (hw : I w) : Safe I P (throw e : Program (StateM σ) α) w :=
  ⟨hw, by rintro _ ⟨⟩; exact he⟩

theorem safe_lift {y : StateM σ α} (hy : Preserves I y) (hw : I w) : Safe I P (ExceptT.lift y) w := ⟨hy w hw, nofun⟩

theorem safe_ask {y : StateM σ (Except Fault α)} (hy : Preserves I y) (hw : I w) : Safe I P (ask y) w :=
  ⟨hy w hw, fun _ he => failure_of_mapError (r := (y.run w).1) he⟩

theorem Safe.bind_ok (hx : Safe I P x w) (hk : ∀ a w', x.run.run w = (.ok a, w') → I w' → Safe I P (k a) w') :
    Safe I P (x >>= k) w := by
  rcases h : x.run.run w with ⟨r, w'⟩
  obtain ⟨hw', hfail⟩ := hx
  rw [h] at hw' hfail
  cases r with
  | ok a =>
      unfold Safe
      rw [run_bind_ok h]
      exact hk a w' h hw'
  | error e =>
      unfold Safe
      rw [run_bind_error h]
      exact ⟨hw', by rintro _ ⟨⟩; exact hfail e rfl⟩

theorem Safe.bind (hx : Safe I P x w) (hk : ∀ a w', I w' → Safe I P (k a) w') : Safe I P (x >>= k) w :=
  hx.bind_ok fun a w' _ hw' => hk a w' hw'

theorem safe_orFault {r : Except Fault α} (hw : I w) : Safe I P (orFault r) w := by
  cases r with
  | ok a => exact safe_pure hw
  | error f => exact safe_throw (.fault f) hw

theorem safe_orFault_bind {r : Except Fault α} (hw : I w) (hk : ∀ a, Safe I P (k a) w) :
    Safe I P (orFault r >>= k) w := by
  cases r with
  | ok a => exact hk a
  | error f => exact safe_throw (.fault f) hw

theorem safe_needed_bind {use : Fault.Use} {v : Option Value} {k : Option String → Program (StateM σ) β} (hw : I w)
    (hk : ∀ a, Safe I P (k a) w) : Safe I P (needed? use v >>= k) w := by
  cases v with
  | none => exact hk none
  | some v =>
      cases v with
      | text text => exact hk (some text)
      | nothing => exact safe_throw (.fault _) hw

end Program

open Program

variable {P : Prop} {w : σ}

theorem log_safe (h : host.Keeps I) (s : Setting) (level : Log.Level) (text : String) (hw : I w) :
    Safe I P (log host s level text) w := safe_lift (tellEntry_preserves h _ _) hw

theorem perform_safe (h : host.Keeps I) (s : Setting) {t : Task (StateM σ) α} (ht : t.Keeps I) (hw : I w) :
    Safe I P (perform host s t) w :=
  ⟨tellAll_preserves h _ _ _ (ht #[] w hw), fun _ he => failure_of_mapError (r := ((t.run.run #[]).run w).1.1) he⟩

theorem homeOf_safe (h : host.Keeps I) (s : Setting) (user : List Char) (hw : I w) :
    Safe I P (homeOf host s user) w := by
  unfold homeOf
  split
  · split
    · exact safe_pure hw
    · exact safe_ask (h.home _) hw
  · exact safe_ask (h.home _) hw

theorem expandHome_safe (h : host.Keeps I) (s : Setting) (path : Path.Tidy) (hw : I w) :
    Safe I P (expandHome host s path) w := by
  unfold expandHome
  split
  · refine (homeOf_safe h s _ hw).bind fun home w hw => ?_
    cases home with
    | none => exact safe_throw (.fault _) hw
    | some home => exact safe_orFault hw
  · exact safe_pure hw

theorem readInput_safe (h : host.Keeps I) (s : Setting) (source : Option String) (label : String)
    (hinput : (host.input.run w).1 = .ok none → P) (hw : I w) : Safe I P (readInput host s source label) w := by
  unfold readInput
  split
  · refine (safe_ask h.input hw).bind_ok fun text w' hask hw' => ?_
    cases text with
    | some text => exact safe_pure hw'
    | none =>
        -- standard input was interrupted
        refine safe_throw (.interrupted (hinput ?_)) hw'
        rcases hrun : host.input.run w with ⟨r, w''⟩
        rw [run_ask hrun] at hask
        cases r with
        | error f => cases hask
        | ok text =>
            cases hask
            rfl
  · refine (expandHome_safe h s _ hw).bind fun path w hw => ?_
    refine (safe_ask (h.machine.read _) hw).bind fun reading w hw => ?_
    split
    · exact safe_pure hw
    · exact (log_safe h s _ _ hw).bind fun _ w hw => safe_throw .exit hw

theorem reconciled_safe (h : host.Keeps I) (s : Setting) (p : Parsed) (hinput : (host.input.run w).1 = .ok none → P)
    (hw : I w) : Safe I P (reconciled host s p) w := by
  refine safe_orFault_bind hw fun settings => safe_needed_bind hw fun distance => ?_
  dsimp only
  split
  · exact safe_throw (.fault _) hw
  refine (readInput_safe h s _ _ hinput hw).bind fun output w hw => safe_needed_bind hw fun markerToken => ?_
  refine (safe_lift (tellAll_preserves h _ _) hw).bind fun _ w hw => ?_
  refine safe_needed_bind hw fun root => safe_needed_bind hw fun compileRoot => ?_
  refine (safe_lift (fun w hw => Session.run_keeps _ _ _ h.machine hw) hw).bind fun outcome w hw => ?_
  refine (safe_lift (tellAll_preserves h _ _) hw).bind fun _ w hw => safe_orFault_bind hw fun groups => ?_
  exact (log_safe h s _ _ hw).bind fun _ w hw => safe_pure hw

theorem diagnosed_safe (h : host.Keeps I) (s : Setting) (p : Parsed) (hinput : (host.input.run w).1 = .ok none → P)
    (hw : I w) : Safe I P (diagnosed host s p) w := by
  refine (readInput_safe h s _ _ hinput hw).bind fun output w hw => safe_needed_bind hw fun file => ?_
  exact (perform_safe h s (Checker.parse_keeps _ _ _) hw).bind fun ds w hw => safe_pure hw

/-- The diagnostics that a command reports, if it reports any. -/
def Name.gathered? (host : Host (StateM σ)) (s : Setting) (p : Parsed) : Name → Option (Program (StateM σ) Groups)
  | reconcile => some (reconciled host s p)
  | diagnose => some (diagnosed host s p)
  | directives => none
  | shadow => none

variable {name : Name} {gather : Program (StateM σ) Groups}

theorem gathered_safe (hname : name.gathered? host s p = some gather) (h : host.Keeps I)
    (hinput : (host.input.run w).1 = .ok none → P) (hw : I w) : Safe I P gather w := by
  cases name with
  | reconcile =>
      cases hname
      exact reconciled_safe h s p hinput hw
  | diagnose =>
      cases hname
      exact diagnosed_safe h s p hinput hw
  | directives => cases hname
  | shadow => cases hname

/-! ## Output -/

theorem outputFile_safe (h : host.Keeps I) (s : Setting) (p : Parsed) (hw : I w) :
    Safe I P (outputFile host s p) w := by
  unfold outputFile
  split
  · exact safe_pure hw
  · refine safe_orFault_bind hw fun dest => ?_
    split
    · exact safe_pure hw
    · refine (expandHome_safe h s _ hw).bind fun path w hw => ?_
      exact (safe_ask (h.resolve _) hw).bind fun file w hw => safe_pure hw

theorem openOutput_run {file : Option String} {w₁ : σ} (h : (outputFile host s p).run.run w = (.ok file, w₁)) :
    (openOutput host s p).run.run w = match file with
      | none => (.ok none, w₁)
      | some path => match (host.create path).run w₁ with
        | (.error f, w') => (.error (.fault f), w')
        | (.ok (), w') => (.ok (some path), w') := by
  rw [openOutput, run_bind_ok h]
  cases file with
  | none => rfl
  | some path =>
      dsimp only
      rcases hcreate : (host.create path).run w₁ with ⟨_ | _, w'⟩
      · exact run_bind_error (run_ask hcreate)
      · exact run_bind_ok (run_ask hcreate)

/-- An output that is not opened cannot be named, or its file cannot be made. -/
theorem openOutput_error {e : Ending} {w' : σ} (h : (openOutput host s p).run.run w = (.error e, w')) :
    (outputFile host s p).run.run w = (.error e, w') ∨ ∃ path w₁ f, e = .fault f ∧
      (outputFile host s p).run.run w = (.ok (some path), w₁) ∧ (host.create path).run w₁ = (.error f, w') := by
  rcases hfile : (outputFile host s p).run.run w with ⟨_ | file, w₁⟩
  · rw [openOutput, run_bind_error hfile] at h
    exact .inl h
  · rw [openOutput_run hfile] at h
    cases file with
    | none => cases h
    | some path =>
        dsimp only at h
        split at h
        · next f _ hcreate =>
          cases h
          exact .inr ⟨path, w₁, f, rfl, rfl, hcreate⟩
        · cases h

theorem openOutput_ok {file : Option String} {w' : σ} (h : (openOutput host s p).run.run w = (.ok file, w')) :
    ∃ w₁, (outputFile host s p).run.run w = (.ok file, w₁) ∧
      (file = none ∧ w' = w₁ ∨ ∃ path, file = some path ∧ (host.create path).run w₁ = (.ok (), w')) := by
  rcases hfile : (outputFile host s p).run.run w with ⟨_ | asked, w₁⟩
  · rw [openOutput, run_bind_error hfile] at h
    cases h
  · rw [openOutput_run hfile] at h
    cases asked with
    | none =>
        cases h
        exact ⟨_, rfl, .inl ⟨rfl, rfl⟩⟩
    | some path =>
        dsimp only at h
        split at h
        · cases h
        · next hcreate =>
          cases h
          exact ⟨w₁, rfl, .inr ⟨path, rfl, hcreate⟩⟩

theorem tellTally_safe (h : host.Keeps I) (format : Format) (tally : Tally) (hw : I w) :
    Safe I P (tellTally host format tally) w := by
  unfold tellTally
  split
  · exact safe_ask (h.tell _) hw
  · exact safe_pure hw

/-- Whatever becomes of its output, a command that cannot report its diagnostics has failed. -/
theorem emit_safe (host : Host (StateM σ)) (s : Setting) (p : Parsed) (groups : Groups) (w : σ) :
    Safe (fun _ => True) P (emit host s p groups) w := by
  have hopen : Safe (fun _ => True) P (openOutput host s p) w := by
    refine ⟨trivial, fun e he => ?_⟩
    rcases openOutput_error (Prod.ext he rfl) with hfile | ⟨_, _, f, rfl, -, -⟩
    · exact (outputFile_safe host.keeps_true s p trivial).2 e (by rw [hfile])
    · exact .fault f
  refine hopen.bind fun file w _ => safe_orFault_bind trivial fun format => ?_
  refine (safe_lift (fun _ _ => trivial) trivial).bind fun report w _ => ?_
  have hwrite : Safe (fun _ => True) P (writeOutput host file report.written) w := by
    cases file <;> exact safe_ask (fun _ _ => trivial) trivial
  refine hwrite.bind fun _ w _ => ?_
  split
  · exact safe_throw (.fault _) trivial
  · exact (tellTally_safe host.keeps_true format _ trivial).bind fun _ w _ => safe_pure trivial

/-! ## From one stage to the next -/

/-- How a command with an output can go, which comes to an `α` if it is complete. -/
inductive Course (α : Type) where
  /-- It failed before it had opened its output. -/
  | failed (e : Ending)
  /-- It failed in writing a text to its output. -/
  | halted (file : Option String) (text : String) (e : Ending)
  /-- It failed behind a text that it had written. -/
  | cut (file : Option String) (text : String) (e : Ending)
  | complete (a : α)

def Course.result (code : α → Nat) : Course α → Except Ending Nat
  | failed e => .error e
  | halted _ _ e => .error e
  | cut _ _ e => .error e
  | complete a => .ok (code a)

/-- The diagnostics are gathered, the output is open, and there is a report to be written to it. -/
inductive Drafts (host : Host (StateM σ)) (s : Setting) (p : Parsed) (gather : Program (StateM σ) Groups) (w : σ) :
    Groups → Option String → Format → Report → σ → Prop
  | intro {groups : Groups} {file : Option String} {format : Format} {report : Report} {w₁ w₂ w' : σ}
      (hgather : gather.run.run w = (.ok groups, w₁)) (hopen : (openOutput host s p).run.run w₁ = (.ok file, w₂))
      (hformat : chosenFormat p = .ok format)
      (hrender : (Report.render host.machine.read (host.palette s.environment) format { version := programVersion }
        groups).run w₂ = (report, w')) :
      Drafts host s p gather w groups file format report w'

/-- Started in `w`, a command that reports diagnostics takes a course that leads to `w'`. -/
inductive Reports (host : Host (StateM σ)) (s : Setting) (p : Parsed) (gather : Program (StateM σ) Groups) (w : σ) :
    Course (Groups × Report) → σ → Prop
  | ungathered {e : Ending} {w' : σ} (hgather : gather.run.run w = (.error e, w')) :
      Reports host s p gather w (.failed e) w'
  | unopened {groups : Groups} {e : Ending} {w₁ w' : σ} (hgather : gather.run.run w = (.ok groups, w₁))
      (hopen : (openOutput host s p).run.run w₁ = (.error e, w')) : Reports host s p gather w (.failed e) w'
  | unformatted {groups : Groups} {file : Option String} {f : Fault} {w₁ w' : σ}
      (hgather : gather.run.run w = (.ok groups, w₁)) (hopen : (openOutput host s p).run.run w₁ = (.ok file, w'))
      (hformat : chosenFormat p = .error f) : Reports host s p gather w (.cut file "" (.fault f)) w'
  | unwritten {groups : Groups} {file : Option String} {format : Format} {report : Report} {e : Ending} {w₁ w' : σ}
      (hdraft : Drafts host s p gather w groups file format report w₁)
      (hwrite : (writeOutput host file report.written).run.run w₁ = (.error e, w')) :
      Reports host s p gather w (.halted file report.written e) w'
  | faulted {groups : Groups} {file : Option String} {format : Format} {report : Report} {f : Fault} {w₁ w' : σ}
      (hdraft : Drafts host s p gather w groups file format report w₁)
      (hwrite : (writeOutput host file report.written).run.run w₁ = (.ok (), w')) (hfault : report.fault = some f) :
      Reports host s p gather w (.cut file report.written (.fault f)) w'
  | untold {groups : Groups} {file : Option String} {format : Format} {report : Report} {e : Ending} {w₁ w₂ w' : σ}
      (hdraft : Drafts host s p gather w groups file format report w₁)
      (hwrite : (writeOutput host file report.written).run.run w₁ = (.ok (), w₂)) (hfault : report.fault = none)
      (htell : (tellTally host format report.tally).run.run w₂ = (.error e, w')) :
      Reports host s p gather w (.cut file report.written e) w'
  | completed {groups : Groups} {file : Option String} {format : Format} {report : Report} {w₁ w₂ w' : σ}
      (hdraft : Drafts host s p gather w groups file format report w₁)
      (hwrite : (writeOutput host file report.written).run.run w₁ = (.ok (), w₂)) (hfault : report.fault = none)
      (htell : (tellTally host format report.tally).run.run w₂ = (.ok (), w')) :
      Reports host s p gather w (.complete (groups, report)) w'

def codeOf (report : Report) : Nat := if report.tally.total = 0 then 0 else 1

variable {w' : σ}

theorem Drafts.run_eq {groups : Groups} {file : Option String} {format : Format} {report : Report}
    (h : Drafts host s p gather w groups file format report w') :
    (gather >>= emit host s p).run.run w = (do
      writeOutput host file report.written
      match report.fault with
      | some f => throw (.fault f)
      | none =>
        tellTally host format report.tally
        pure (codeOf report) : Program (StateM σ) Nat).run.run w' := by
  obtain ⟨hgather, hopen, hformat, hrender⟩ := h
  have hchosen (w : σ) : (orFault (chosenFormat p) : Program (StateM σ) Format).run.run w = (.ok format, w) := by
    rw [hformat]
    rfl
  rw [run_bind_ok hgather, emit, run_bind_ok hopen, run_bind_ok (hchosen _), run_bind_ok (run_lift hrender)]
  rfl

theorem Reports.run_eq {course : Course (Groups × Report)} (h : Reports host s p gather w course w') :
    (gather >>= emit host s p).run.run w = (course.result fun x => codeOf x.2, w') := by
  cases h with
  | ungathered hgather => exact run_bind_error hgather
  | unopened hgather hopen => exact (run_bind_ok hgather).trans (run_bind_error hopen)
  | unformatted hgather hopen hformat =>
      rw [run_bind_ok hgather, emit, run_bind_ok hopen, hformat]
      rfl
  | unwritten hdraft hwrite => rw [hdraft.run_eq, run_bind_error hwrite]; rfl
  | faulted hdraft hwrite hfault =>
      rw [hdraft.run_eq, run_bind_ok hwrite, hfault]
      rfl
  | untold hdraft hwrite hfault htell =>
      rw [hdraft.run_eq, run_bind_ok hwrite, hfault]
      exact run_bind_error htell
  | completed hdraft hwrite hfault htell =>
      rw [hdraft.run_eq, run_bind_ok hwrite, hfault]
      exact run_bind_ok htell

theorem exists_reports (host : Host (StateM σ)) (s : Setting) (p : Parsed) (gather : Program (StateM σ) Groups)
    (w : σ) :
    ∃ course w', Reports host s p gather w course w' := by
  rcases hgather : gather.run.run w with ⟨_ | groups, w₁⟩
  · exact ⟨_, _, .ungathered hgather⟩
  rcases hopen : (openOutput host s p).run.run w₁ with ⟨_ | file, w₂⟩
  · exact ⟨_, _, .unopened hgather hopen⟩
  cases hformat : chosenFormat p with
  | error f => exact ⟨_, _, .unformatted hgather hopen hformat⟩
  | ok format =>
      rcases hrender : (Report.render host.machine.read (host.palette s.environment) format
        { version := programVersion } groups).run w₂ with ⟨report, w₃⟩
      have hdraft : Drafts host s p gather w groups file format report w₃ := ⟨hgather, hopen, hformat, hrender⟩
      rcases hwrite : (writeOutput host file report.written).run.run w₃ with ⟨_ | _, w₄⟩
      · exact ⟨_, _, .unwritten hdraft hwrite⟩
      cases hfault : report.fault with
      | some f => exact ⟨_, _, .faulted hdraft hwrite hfault⟩
      | none =>
          rcases htell : (tellTally host format report.tally).run.run w₄ with ⟨_ | _, w₅⟩
          · exact ⟨_, _, .untold hdraft hwrite hfault htell⟩
          · exact ⟨_, _, .completed hdraft hwrite hfault htell⟩

/-- Started in `w`, a command that lists directives takes a course that leads to `w'`. -/
inductive Lists (host : Host (StateM σ)) (s : Setting) (p : Parsed) (w : σ) : Course Unit → σ → Prop
  | unopened {e : Ending} {w' : σ} (hopen : (openOutput host s p).run.run w = (.error e, w')) :
      Lists host s p w (.failed e) w'
  | unwritten {file : Option String} {listing : Listing} {e : Ending} {w₁ w₂ w' : σ}
      (hopen : (openOutput host s p).run.run w = (.ok file, w₁))
      (hlist : (listAll host s file (p.operands.getD []) "").run w₁ = (listing, w₂))
      (hclose : (closeOutput host file listing.written).run.run w₂ = (.error e, w')) :
      Lists host s p w (.halted file listing.written e) w'
  | ended {file : Option String} {listing : Listing} {e : Ending} {w₁ w₂ w' : σ}
      (hopen : (openOutput host s p).run.run w = (.ok file, w₁))
      (hlist : (listAll host s file (p.operands.getD []) "").run w₁ = (listing, w₂))
      (hclose : (closeOutput host file listing.written).run.run w₂ = (.ok (), w'))
      (hending : listing.ending = some e) : Lists host s p w (.cut file listing.written e) w'
  | completed {file : Option String} {listing : Listing} {w₁ w₂ w' : σ}
      (hopen : (openOutput host s p).run.run w = (.ok file, w₁))
      (hlist : (listAll host s file (p.operands.getD []) "").run w₁ = (listing, w₂))
      (hclose : (closeOutput host file listing.written).run.run w₂ = (.ok (), w'))
      (hending : listing.ending = none) : Lists host s p w (.complete ()) w'

theorem Lists.run_eq {course : Course Unit} (h : Lists host s p w course w') :
    (directives host s p).run.run w = (course.result fun _ => 0, w') := by
  unfold directives
  cases h with
  | unopened hopen => exact run_bind_error hopen
  | unwritten hopen hlist hclose =>
      rw [run_bind_ok hopen, run_bind_ok (run_lift hlist), run_bind_error hclose]
      rfl
  | ended hopen hlist hclose hending =>
      rw [run_bind_ok hopen, run_bind_ok (run_lift hlist), run_bind_ok hclose, hending]
      rfl
  | completed hopen hlist hclose hending =>
      rw [run_bind_ok hopen, run_bind_ok (run_lift hlist), run_bind_ok hclose, hending]
      rfl

theorem exists_lists (host : Host (StateM σ)) (s : Setting) (p : Parsed) (w : σ) :
    ∃ course w', Lists host s p w course w' := by
  rcases hopen : (openOutput host s p).run.run w with ⟨_ | file, w₁⟩
  · exact ⟨_, _, .unopened hopen⟩
  rcases hlist : (listAll host s file (p.operands.getD []) "").run w₁ with ⟨listing, w₂⟩
  rcases hclose : (closeOutput host file listing.written).run.run w₂ with ⟨_ | _, w₃⟩
  · exact ⟨_, _, .unwritten hopen hlist hclose⟩
  cases hending : listing.ending with
  | some e => exact ⟨_, _, .ended hopen hlist hclose hending⟩
  | none => exact ⟨_, _, .completed hopen hlist hclose hending⟩

end Command

end Backmap
