import Backmap.Proofs.Command.ExitCodes
import Backmap.Proofs.Workspace.Files
import Mathlib.Algebra.Group.Int.Defs

/-!
# The output of a command that failed

Until its output is open, a command leaves all files as they are. Opening the output empties it, and from then on it
holds what has been written, or a beginning of it if the writing itself failed.
-/

namespace Backmap.Command

open Program

section

variable {σ α : Type} {plain : String → Prop} {content : σ → String → Option ByteArray} {w w₁ w₂ w' : σ}

/-! ## Files of a host -/

/-- The plain files hold the same in two states. -/
def Same (plain : String → Prop) (content : σ → String → Option ByteArray) (w w' : σ) : Prop :=
  ∀ path, plain path → content w' path = content w path

theorem Same.trans (h : Same plain content w w₁) (h' : Same plain content w₁ w') : Same plain content w w' :=
  fun path hpath => (h' path hpath).trans (h path hpath)

/-- In the state `w`, the file at a path holds `content w path`, if there is one. This is asked of paths that are
`plain`: paths of regular files that no standard stream goes to. -/
structure Host.Stores (host : Host (StateM σ)) (plain : String → Prop) (content : σ → String → Option ByteArray) :
    Prop where
  keeps : ∀ w, host.Keeps (Same plain content w)
  create_error : ∀ {path f w w'}, (host.create path).run w = (.error f, w') → Same plain content w w'
  create_ok : ∀ {path w w'}, plain path → (host.create path).run w = (.ok (), w') → content w' path = some .empty
  save_error : ∀ {path text f w w'}, plain path → content w path = some .empty →
    (host.save path text).run w = (.error f, w') →
    ∃ start rest, content w' path = some start ∧ start ++ rest = text.toUTF8
  save_ok : ∀ {path text w w'}, plain path → content w path = some .empty →
    (host.save path text).run w = (.ok (), w') → content w' path = some text.toUTF8

/-- The output holds a text if it is a file, and otherwise no file has changed. -/
def Holds (plain : String → Prop) (content : σ → String → Option ByteArray) (w w' : σ) (text : String) :
    Option String → Prop
  | none => Same plain content w w'
  | some path => plain path → content w' path = some text.toUTF8

/-- The same, where the output may hold no more than a beginning of the text. -/
def HoldsStart (plain : String → Prop) (content : σ → String → Option ByteArray) (w w' : σ) (text : String) :
    Option String → Prop
  | none => Same plain content w w'
  | some path => plain path → ∃ start rest, content w' path = some start ∧ start ++ rest = text.toUTF8

/-- What a course that is not complete leaves behind. -/
def Course.Leaves (plain : String → Prop) (content : σ → String → Option ByteArray) (w w' : σ) : Course α → Prop
  | failed _ => Same plain content w w'
  | halted file text _ => HoldsStart plain content w w' text file
  | cut file text _ => Holds plain content w w' text file
  | complete _ => False

variable {text : String} {file : Option String} {course : Course α}

theorem Holds.trans (h : Holds plain content w w₁ text file) (h' : Same plain content w₁ w') :
    Holds plain content w w' text file := by
  cases file with
  | none => exact Same.trans h h'
  | some path => exact fun hpath => (h' path hpath).trans (h hpath)

theorem Holds.after (h : Holds plain content w₁ w' text file) (h' : Same plain content w w₁) :
    Holds plain content w w' text file := by
  cases file with
  | none => exact Same.trans h' h
  | some path => exact h

theorem HoldsStart.trans (h : HoldsStart plain content w w₁ text file) (h' : Same plain content w₁ w') :
    HoldsStart plain content w w' text file := by
  cases file with
  | none => exact Same.trans h h'
  | some path =>
      intro hpath
      obtain ⟨start, rest, hstart, htext⟩ := h hpath
      exact ⟨start, rest, (h' path hpath).trans hstart, htext⟩

theorem Course.Leaves.trans (h : course.Leaves plain content w w₁) (h' : Same plain content w₁ w') :
    course.Leaves plain content w w' := by
  cases course with
  | failed e => exact Same.trans h h'
  | halted file text e => exact HoldsStart.trans h h'
  | cut file text e => exact Holds.trans h h'
  | complete a => exact h

/-! ## What the stages leave behind -/

variable {host : Host (StateM σ)} {s : Setting} {p : Parsed}

theorem Host.Stores.of_safe (h : host.Stores plain content) {x : Program (StateM σ) α} {r : Except Ending α}
    (hx : ∀ {I : σ → Prop}, host.Keeps I → ∀ w, I w → Safe I True x w) (hrun : x.run.run w = (r, w')) :
    Same plain content w w' := by
  have hsame := (hx (h.keeps w) w fun _ _ => rfl).1
  rwa [hrun] at hsame

theorem Host.Stores.outputFile (h : host.Stores plain content) {r : Except Ending (Option String)}
    (hrun : (outputFile host s p).run.run w = (r, w')) : Same plain content w w' :=
  h.of_safe (fun hkeeps _ hw => outputFile_safe hkeeps s p hw) hrun

theorem Host.Stores.openOutput_error (h : host.Stores plain content) {e : Ending}
    (hopen : (openOutput host s p).run.run w = (.error e, w')) : Same plain content w w' := by
  rcases Command.openOutput_error hopen with hrun | ⟨path, w₁, f, -, hrun, hcreate⟩
  · exact h.outputFile hrun
  · exact (h.outputFile hrun).trans (h.create_error hcreate)

theorem Host.Stores.openOutput_ok (h : host.Stores plain content)
    (hopen : (openOutput host s p).run.run w = (.ok file, w')) : Holds plain content w w' "" file := by
  obtain ⟨w₁, hrun, ⟨rfl, rfl⟩ | ⟨path, rfl, hcreate⟩⟩ := Command.openOutput_ok hopen
  · exact h.outputFile hrun
  · exact fun hpath => h.create_ok hpath hcreate

theorem Host.Stores.written (h : host.Stores plain content) (hempty : Holds plain content w w₁ "" file)
    {x : Program (StateM σ) Unit} {r : Except Ending Unit}
    (hnone : file = none → ∀ {I : σ → Prop}, host.Keeps I → ∀ w, I w → Safe I True x w)
    (hsome : ∀ path, file = some path → x = ask (host.save path text)) (hrun : x.run.run w₁ = (r, w')) :
    HoldsStart plain content w w' text file ∧ (r = .ok () → Holds plain content w w' text file) := by
  cases file with
  | none =>
      have hsame : Same plain content w w' := Same.trans hempty (h.of_safe (hnone rfl) hrun)
      exact ⟨hsame, fun _ => hsame⟩
  | some path =>
      rcases hsave : (host.save path text).run w₁ with ⟨saved, w₂⟩
      rw [hsome path rfl, run_ask hsave] at hrun
      cases saved with
      | error f =>
          cases hrun
          exact ⟨fun hpath => h.save_error hpath (hempty hpath) hsave, nofun⟩
      | ok _ =>
          cases hrun
          have hsaved (hpath : plain path) := h.save_ok hpath (hempty hpath) hsave
          exact ⟨fun hpath => ⟨_, .empty, hsaved hpath, ByteArray.append_empty⟩, fun _ => hsaved⟩

theorem Host.Stores.writeOutput (h : host.Stores plain content) (hempty : Holds plain content w w₁ "" file)
    {r : Except Ending Unit} (hrun : (writeOutput host file text).run.run w₁ = (r, w')) :
    HoldsStart plain content w w' text file ∧ (r = .ok () → Holds plain content w w' text file) := by
  refine h.written hempty ?_ ?_ hrun
  · rintro rfl I hkeeps w hw
    exact safe_ask (hkeeps.print _) hw
  · rintro path rfl
    rfl

theorem Host.Stores.closeOutput (h : host.Stores plain content) (hempty : Holds plain content w w₁ "" file)
    {r : Except Ending Unit} (hrun : (closeOutput host file text).run.run w₁ = (r, w')) :
    HoldsStart plain content w w' text file ∧ (r = .ok () → Holds plain content w w' text file) := by
  refine h.written hempty ?_ ?_ hrun
  · rintro rfl I hkeeps w hw
    exact safe_pure hw
  · rintro path rfl
    rfl

/-! ## What the courses leave behind -/

variable {gather : Program (StateM σ) Groups}

theorem Drafts.holds {groups : Groups} {format : Format} {report : Report} (h : host.Stores plain content)
    (hgather : ∀ {I : σ → Prop}, host.Keeps I → ∀ w, I w → Safe I True gather w)
    (hdraft : Drafts host s p gather w groups file format report w') : Holds plain content w w' "" file := by
  cases hdraft with
  | @intro w₁ w₂ _ hgathered hopen hformat hrender =>
      have hread := Report.render_preserves (h.keeps w₂).machine.read (host.palette s.environment) format
        { version := programVersion } groups w₂ fun _ _ => rfl
      rw [hrender] at hread
      exact ((h.openOutput_ok hopen).after (h.of_safe hgather hgathered)).trans hread

theorem Reports.leaves {course : Course (Groups × Report)} (h : host.Stores plain content)
    (hgather : ∀ {I : σ → Prop}, host.Keeps I → ∀ w, I w → Safe I True gather w)
    (hreports : Reports host s p gather w course w') (hfailed : ∀ x, course ≠ .complete x) :
    course.Leaves plain content w w' := by
  cases hreports with
  | ungathered hgathered => exact h.of_safe hgather hgathered
  | unopened hgathered hopen => exact (h.of_safe hgather hgathered).trans (h.openOutput_error hopen)
  | unformatted hgathered hopen hformat => exact (h.openOutput_ok hopen).after (h.of_safe hgather hgathered)
  | unwritten hdraft hwrite => exact (h.writeOutput (hdraft.holds h hgather) hwrite).1
  | faulted hdraft hwrite hfault => exact (h.writeOutput (hdraft.holds h hgather) hwrite).2 rfl
  | untold hdraft hwrite hfault htell =>
      have htold := h.of_safe (fun hkeeps _ hw => tellTally_safe hkeeps _ _ hw) htell
      exact ((h.writeOutput (hdraft.holds h hgather) hwrite).2 rfl).trans htold
  | completed hdraft hwrite hfault htell => exact absurd rfl (hfailed _)

theorem showFound_safe {I : σ → Prop} {P : Prop} (h : host.Keeps I) (file : Option String) (path lines : String)
    (count : Nat) (hw : I w) : Safe I P (showFound host file path lines count) w := by
  unfold showFound
  dsimp only
  split
  · exact (safe_ask (h.print _) hw).bind fun _ w hw => safe_ask (h.tell _) hw
  · exact safe_ask (h.tell _) hw

theorem listAll_preserves {I : σ → Prop} (h : host.Keeps I) (s : Setting) (file : Option String) (paths : List String)
    (written : String) : Preserves I (listAll host s file paths written) := by
  induction paths generalizing written with
  | nil => exact preserves_pure _
  | cons path paths ih =>
      unfold listAll
      refine Preserves.bind (fun w hw => (readInput_safe h s _ _ (fun _ => trivial) hw).1) fun read => ?_
      cases read with
      | error e => exact preserves_pure _
      | ok text =>
          refine Preserves.bind (fun w hw => (showFound_safe (P := True) h file _ _ _ hw).1) fun shown => ?_
          cases shown with
          | error e => exact preserves_pure _
          | ok _ => exact ih _

theorem Lists.leaves {course : Course Unit} (h : host.Stores plain content) (hlists : Lists host s p w course w')
    (hfailed : course ≠ .complete ()) : course.Leaves plain content w w' := by
  have hlisted {file : Option String} {listing : Listing} {w₁ w₂ : σ}
      (hopen : (openOutput host s p).run.run w = (.ok file, w₁))
      (hlist : (listAll host s file (p.operands.getD []) "").run w₁ = (listing, w₂)) :
      Holds plain content w w₂ "" file := by
    have hsame := listAll_preserves (h.keeps w₁) s file (p.operands.getD []) "" w₁ fun _ _ => rfl
    rw [hlist] at hsame
    exact (h.openOutput_ok hopen).trans hsame
  cases hlists with
  | unopened hopen => exact h.openOutput_error hopen
  | unwritten hopen hlist hclose => exact (h.closeOutput (hlisted hopen hlist) hclose).1
  | ended hopen hlist hclose hending => exact (h.closeOutput (hlisted hopen hlist) hclose).2 rfl
  | completed hopen hlist hclose hending => exact absurd rfl hfailed

/-! ## What a run leaves behind -/

variable {cwd : String} {environment : List (String × String)} {args : List String}

theorem Host.Stores.concluded (h : host.Stores plain content) (level : Log.Level) (r : Except Ending Nat) (w : σ) :
    Same plain content w (concluded host level (r, w)).2 := by
  cases r with
  | ok code => exact fun _ _ => rfl
  | error e => exact conclude_preserves (h.keeps w) level e w fun _ _ => rfl

theorem Host.Stores.no_command (h : host.Stores plain content)
    (hnone : ∀ verbosity name p, readCall host.dashes args ≠ .ok ⟨verbosity, some (name, p)⟩) (w : σ) :
    Same plain content w ((run host cwd environment args).run w).2 := by
  have hprint (text : String) := (h.keeps w).print text w fun _ _ => rfl
  have htell (text : String) := (h.keeps w).tell text w fun _ _ => rfl
  unfold run
  cases hcall : readCall host.dashes args with
  | error stop =>
      cases stop with
      | help g => exact hprint _
      | version => exact hprint _
      | misuse g text => exact htell _
  | ok call =>
      obtain ⟨verbosity, _ | ⟨name, p⟩⟩ := call
      · exact htell _
      · exact absurd hcall (hnone verbosity name p)

end

/-! ## A console -/

namespace Console

variable {t t' : Workspace} {path : String} {e : Fault}

def content (c : Console) (path : String) : Option ByteArray := c.workspace.fileAt? (Workspace.placeOf path)

theorem fileAt?_of_makeFolders (t : Workspace) (path : Path.Tidy) (fuel : Nat) (place : List String) :
    (makeFolders t path fuel).2.fileAt? place = t.fileAt? place := by
  induction fuel generalizing t path with
  | zero => rfl
  | succ fuel ih =>
      unfold makeFolders
      dsimp only
      split
      · next t' hmade => exact Workspace.fileAt?_of_makeFolder hmade place
      · split
        · rfl
        · have hparent := ih t path.parent
          split
          · next hfailed => rw [hfailed] at hparent; exact hparent
          · next t' hmade =>
            rw [hmade] at hparent
            split
            · next t'' hmade' => exact (Workspace.fileAt?_of_makeFolder hmade' place).trans hparent
            · exact hparent
            · split <;> exact hparent
      · split <;> rfl

theorem fileAt?_of_createFile (h : createFile t path = (.error e, t')) (place : List String) :
    t'.fileAt? place = t.fileAt? place := by
  have hfolders := fileAt?_of_makeFolders t (Path.Tidy.ofString path).parent
    ((Path.Tidy.ofString path).parts.length + 1) place
  unfold createFile at h
  dsimp only at h
  split at h
  · next hmade =>
    cases h
    rw [hmade] at hfolders
    exact hfolders
  · next hmade =>
    rw [hmade] at hfolders
    split at h
    · cases h
    · cases h
      exact hfolders

theorem write_of_createFile (h : createFile t path = (.ok (), t')) :
    ∃ t₁ : Workspace, t₁.write path .empty = .ok t' := by
  unfold createFile at h
  dsimp only at h
  split at h
  · cases h
  · split at h
    · next hwrite =>
      cases h
      exact ⟨_, hwrite⟩
    · cases h

variable {c c' : Console}

theorem createFile_of_create {r : Except Fault Unit} (h : (host.create path).run c = (r, c')) :
    createFile c.workspace path = (r, c'.workspace) := by
  cases h
  rfl

theorem save_run (path text : String) (c : Console) :
    (host.save path text).run c = match c.workspace.write path text.toUTF8 with
      | .ok t => (.ok (), { c with workspace := t })
      | .error e => (.error e, c) := rfl

theorem host_stores : host.Stores Workspace.Direct content where
  keeps c := ⟨⟨fun _ _ h => h, fun _ _ h => h, fun _ _ h => h⟩, fun _ h => h, fun _ _ h => h, fun _ _ h => h,
    fun _ _ h => h, fun _ _ h => h, fun _ h => h⟩
  create_error h _ _ := fileAt?_of_createFile (createFile_of_create h) _
  create_ok hpath h := by
    obtain ⟨t, hwrite⟩ := write_of_createFile (createFile_of_create h)
    exact Workspace.fileAt?_of_write hwrite hpath
  save_error := by
    intro path text f c c' hpath hempty h
    rw [save_run] at h
    split at h
    · cases h
    · cases h
      exact ⟨.empty, text.toUTF8, hempty, ByteArray.empty_append⟩
  save_ok := by
    intro path text c c' hpath _ h
    rw [save_run] at h
    split at h
    · next hwrite =>
      cases h
      exact Workspace.fileAt?_of_write hwrite hpath
    · cases h

end Console

/-! ## A report that is cut short -/

/-- A console with findings on standard input and a file that the output goes to. -/
def Console.withOutput (lines : List Int) (old : ByteArray) : Console :=
  .sample lines [(["w", "out.txt"], .file old)]

def Parsed.sampleOutput : Parsed := .sample [("--output", .text "out.txt")]

theorem readCall_output :
    readCall .kept ["diagnose", "--file", "a.go", "-o", "out.txt"] = .ok ⟨0, some (.diagnose, .sampleOutput)⟩ := by rfl

theorem render_overlong {n : Int} (hlong : Numeral.fits (n + 1) = false) (c : Console) :
    ∃ tally, (Report.render Console.host.machine.read (Console.host.palette []) .plain { version := programVersion }
      [("/w/a.go", [0, n].map (Checker.found "/w/a.go"))]).run c =
        (⟨"/w/a.go:1:1: information: m [inco]\n", some .numberTooLong, tally⟩, c) := by
  have hfirst : (Checker.found "/w/a.go" 0).fits = true := by decide
  have hnext : (Checker.found "/w/a.go" n).fits = false := by simp [Diagnostic.fits, Checker.found, hlong]
  have hlines : Report.lineByLine Diagnostic.fits Diagnostic.plain ([0, n].map (Checker.found "/w/a.go") ++ []) "" =
      ("/w/a.go:1:1: information: m [inco]\n", some .numberTooLong) := by
    simp only [List.map_cons, List.cons_append, Report.lineByLine, hfirst, hnext, if_true, Bool.false_eq_true, if_false]
    rfl
  simp only [Report.render, Groups.diagnostics, List.flatMap_cons, List.flatMap_nil, hlines]
  exact ⟨_, rfl⟩

theorem openOutput_sample (lines : List Int) (old : ByteArray) :
    (openOutput Console.host ⟨"/w", [], .warning⟩ .sampleOutput).run.run
      { Console.withOutput lines old with input := some "" } =
        (.ok (some "/w/out.txt"), { Console.withOutput lines .empty with input := some "" }) := by
  have hfile : (outputFile Console.host ⟨"/w", [], .warning⟩ .sampleOutput).run.run
      { Console.withOutput lines old with input := some "" } =
        (.ok (some "/w/out.txt"), { Console.withOutput lines old with input := some "" }) := by rfl
  have hcreate : (Console.host.create "/w/out.txt").run { Console.withOutput lines old with input := some "" } =
      (.ok (), { Console.withOutput lines .empty with input := some "" }) := by rfl
  rw [openOutput_run hfile]
  dsimp only
  rw [hcreate]

/-- The second finding is in a line whose successor is too long to be written. -/
theorem reports_overlong {n : Int} (hfits : Numeral.fits n = true) (hlong : Numeral.fits (n + 1) = false)
    (old : ByteArray) :
    ∃ c, Reports Console.host ⟨"/w", [], .warning⟩ .sampleOutput
      (diagnosed Console.host ⟨"/w", [], .warning⟩ .sampleOutput) (.withOutput [0, n] old)
      (.cut (some "/w/out.txt") "/w/a.go:1:1: information: m [inco]\n" (.fault .numberTooLong)) c := by
  have hlines : ∀ line ∈ [0, n], Numeral.fits line = true := by
    simp only [List.forall_mem_cons, hfits]
    exact ⟨by decide, trivial, List.forall_mem_nil _⟩
  have hgather := diagnosed_sample hlines (List.cons_ne_nil _ _) [(["w", "out.txt"], .file old)]
    (s := ⟨"/w", [], .warning⟩) rfl (p := .sampleOutput) rfl rfl
  obtain ⟨tally, hrender⟩ := render_overlong hlong { Console.withOutput [0, n] .empty with input := some "" }
  have hwrite (text : String) : (writeOutput Console.host (some "/w/out.txt") text).run.run
      { Console.withOutput [0, n] .empty with input := some "" } =
        (.ok (), { Console.withOutput [0, n] text.toUTF8 with input := some "" }) := by rfl
  exact ⟨_, .faulted ⟨hgather, openOutput_sample _ old, rfl, hrender⟩ (hwrite _) rfl⟩

theorem fits_nines :
    Numeral.fits (10 ^ Numeral.limit - 1) = true ∧ Numeral.fits (10 ^ Numeral.limit - 1 + 1) = false := by
  have hcast : (10 : Int) ^ Numeral.limit = (10 ^ Numeral.limit : Nat) := (Int.natCast_pow 10 _).symm
  have hpos : 0 < 10 ^ Numeral.limit := Nat.pow_pos (by decide)
  rw [← Bool.not_eq_true, Numeral.fits_iff, Numeral.fits_iff, hcast]
  generalize 10 ^ Numeral.limit = k at hpos
  omega

theorem run_overlong {n : Int} (hfits : Numeral.fits n = true) (hlong : Numeral.fits (n + 1) = false)
    (old : ByteArray) :
    let after := (run Console.host "/w" [] ["diagnose", "--file", "a.go", "-o", "out.txt"]).run (.withOutput [0, n] old)
    after.1 = 2 ∧ after.2.content "/w/out.txt" = some "/w/a.go:1:1: information: m [inco]\n".toUTF8 := by
  obtain ⟨c, hreports⟩ := reports_overlong hfits hlong old
  have hleaves := hreports.leaves Console.host_stores
    (fun hkeeps _ hw => diagnosed_safe hkeeps _ _ (fun _ => trivial) hw) nofun
  have hafter := hleaves.trans (Console.host_stores.concluded .warning (.error (.fault .numberTooLong)) c)
  rw [run_of_reports readCall_output rfl hreports]
  exact ⟨rfl, hafter (by decide)⟩

/-! ## The output of a run -/

end Backmap.Command
