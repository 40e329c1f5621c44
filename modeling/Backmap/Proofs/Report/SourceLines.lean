import Backmap.Proofs.Anchor.Comments
import Backmap.Proofs.Batch.Completion
import Backmap.Proofs.Batch.Readers
import Backmap.Proofs.Workspace
import Backmap.Report

/-!
# The source lines of a terminal report

A terminal report shows a diagnostic with the line that it points at, and reads each source once for all its
diagnostics. As long as the files stay as they are, a diagnostic that a batch has moved onto a directive is shown with
the line of that directive. A diagnostic that cannot be shown ends the report, and takes those behind it along.
-/

namespace Backmap

/-! ## What a report shows -/

namespace Terminal

variable {σ : Type} {I : σ → Prop} {answer : String → Except Fault Reading} {read : Reader (StateM σ)} {known : Sources}
  {d : Diagnostic} {ds : List Diagnostic} {w : σ}

/-- The lines that are shown of a diagnostic where there are no colours: what it says, its place, the source line with
its number, if there is one, and an empty line. -/
def entry (d : Diagnostic) (source : Option String) : List String :=
  [d.severity.label ++ ": " ++ d.message, "  --> " ++ d.file ++ ":" ++ Numeral.write (d.line + 1)] ++
    (source.map fun line => " " ++ Numeral.write (d.line + 1) ++ " | " ++ line).toList ++ [""]

theorem toList_text (d : Diagnostic) (source : Option String) :
    (text .plain d source).toList = (entry d source).flatMap fun line => line.toList ++ ['\n'] := by
  cases source <;> simp [text, entry, Palette.plain]

/-- The source line that a diagnostic points at, where `answer` is what the files hold. -/
def source? (answer : String → Except Fault Reading) (d : Diagnostic) : Option String :=
  match answer d.file with
  | .ok r => lineAt? (linesOf r) d.line
  | .error _ => none

/-- What is shown of diagnostics one after the other. -/
def page (answer : String → Except Fault Reading) (ds : List Diagnostic) : List Char :=
  ds.flatMap fun d => (entry d (source? answer d)).flatMap fun line => line.toList ++ ['\n']

/-- A diagnostic can be shown: the number of its line can be written, and looking for its file does not end with a
fault. -/
def Showable (answer : String → Except Fault Reading) (d : Diagnostic) : Prop :=
  Numeral.fits (d.line + 1) = true ∧ (answer d.file).isOk = true

instance (answer : String → Except Fault Reading) (d : Diagnostic) : Decidable (Showable answer d) :=
  inferInstanceAs (Decidable (_ ∧ _))

theorem page_append (ds es : List Diagnostic) : page answer (ds ++ es) = page answer ds ++ page answer es :=
  List.flatMap_append

theorem eq_nil_of_page (h : page answer ds = []) : ds = [] := by
  cases ds with
  | nil => rfl
  | cons d ds => simp [page, entry] at h

theorem lineAt?_natCast (ls : List (List Char)) (n : Nat) :
    lineAt? ls n = (ls[n]?).map fun l => String.ofList (Text.trimRight l) := rfl

theorem lineAt?_eq_none {ls : List (List Char)} {index : Int} :
    lineAt? ls index = none ↔ index < 0 ∨ ls.length ≤ index := by
  cases index with
  | ofNat n =>
      rw [Int.ofNat_eq_natCast, lineAt?_natCast, Option.map_eq_none_iff, List.getElem?_eq_none_iff]
      omega
  | negSucc n =>
      have hneg := Int.negSucc_lt_zero n
      exact ⟨fun _ => .inl hneg, fun _ => rfl⟩

theorem source?_eq_none : source? answer d = none ↔
    ∀ text, answer d.file = .ok (.text text) → d.line < 0 ∨ (Text.lines text.toList).length ≤ d.line := by
  unfold source?
  cases hanswer : answer d.file with
  | error e => simp
  | ok r =>
      cases r with
      | text text => simp [linesOf, Reading.text?, lineAt?_eq_none]
      | refused error =>
          simp [linesOf, Reading.text?, lineAt?_eq_none]
          omega
      | silent =>
          simp [linesOf, Reading.text?, lineAt?_eq_none]
          omega

/-! ## Writing -/

/-- All that is remembered of sources is what reading them gives. -/
def Remembers (answer : String → Except Fault Reading) (known : Sources) : Prop :=
  ∀ path lines, AnchorCache.lookup? path known = some lines → ∃ r, answer path = .ok r ∧ lines = linesOf r

theorem Remembers.concat {path : String} {r : Reading} (h : Remembers answer known) (hr : answer path = .ok r) :
    Remembers answer (known ++ [(path, linesOf r)]) := by
  intro name lines hname
  rw [AnchorCache.lookup?_concat] at hname
  cases hknown : AnchorCache.lookup? name known with
  | some lines' =>
      rw [hknown, Option.some_or] at hname
      exact h name lines (hknown.trans hname)
  | none =>
      rw [hknown, Option.none_or] at hname
      split at hname
      · next he => exact ⟨r, he ▸ hr, (Option.some.inj hname).symm⟩
      · cases hname

/-- The lines of a source are those that reading it gives, whether it is read now or was before. -/
theorem sourceLines_spec (hread : read.Answers I fun path a => a = answer path) (hw : I w) (h : Remembers answer known)
    (path : String) :
    I ((sourceLines read path known).run w).2 ∧
      match ((sourceLines read path known).run w).1 with
      | .error e => answer path = .error e
      | .ok (lines, known') => Remembers answer known' ∧ ∃ r, answer path = .ok r ∧ lines = linesOf r := by
  have hlookup : (known.find? (·.1 == path)).map (·.2) = AnchorCache.lookup? path known := rfl
  unfold sourceLines
  rw [hlookup]
  cases hknown : AnchorCache.lookup? path known with
  | some lines => exact ⟨hw, h, h path lines hknown⟩
  | none =>
      have hanswer := hread.answer path w hw
      have hstays := hread.stays path w hw
      rcases hx : (read path).run w with ⟨x, w'⟩
      rw [hx] at hanswer hstays
      simp only [StateT.run_bind, hx]
      cases x with
      | error e => exact ⟨hstays, hanswer.symm⟩
      | ok r => exact ⟨hstays, h.concat hanswer.symm, r, hanswer.symm, rfl⟩

section Steps

variable {palette : Palette} {lines : List (List Char)} {known' : Sources} {w' : σ} {e : Fault}

theorem run_write_long (h : Numeral.fits (d.line + 1) = false) (ds : List Diagnostic) (written : String) :
    (write palette read (d :: ds) known written).run w = ((written, some .numberTooLong), w) := by
  simp only [write, h, Bool.not_false, if_true]
  rfl

theorem run_write_unread (h : Numeral.fits (d.line + 1) = true)
    (hlines : (sourceLines read d.file known).run w = (.error e, w')) (ds : List Diagnostic) (written : String) :
    (write palette read (d :: ds) known written).run w = ((written, some e), w') := by
  simp only [write, h, Bool.not_true, Bool.false_eq_true, if_false, StateT.run_bind, hlines]
  rfl

theorem run_write_shown (h : Numeral.fits (d.line + 1) = true)
    (hlines : (sourceLines read d.file known).run w = (.ok (lines, known'), w')) (ds : List Diagnostic)
    (written : String) : (write palette read (d :: ds) known written).run w =
      (write palette read ds known' (written ++ text palette d (lineAt? lines d.line))).run w' := by
  rw [write]
  simp only [h, Bool.not_true, Bool.false_eq_true, if_false, StateT.run_bind, hlines]
  rfl

end Steps

theorem page_takeWhile_of_not (hd : ¬ Showable answer d) (ds : List Diagnostic) :
    page answer ((d :: ds).takeWhile (Showable answer ·)) = [] := by
  rw [List.takeWhile_cons_of_neg (by simpa using hd)]
  rfl

/-- Diagnostics are shown up to the first that cannot be. -/
theorem write_spec (hread : read.Answers I fun path a => a = answer path) (hw : I w) (h : Remembers answer known)
    (ds : List Diagnostic) (written : String) :
    let report := ((write .plain read ds known written).run w).1
    report.1.toList = written.toList ++ page answer (ds.takeWhile (Showable answer ·)) ∧
      (report.2 = none ↔ ∀ d ∈ ds, Showable answer d) := by
  induction ds generalizing known written w with
  | nil => exact ⟨(List.append_nil _).symm, fun _ => List.forall_mem_nil _, fun _ => rfl⟩
  | cons d ds ih =>
      have hcut : ¬ Showable answer d → ∀ e : Fault,
          written.toList = written.toList ++ page answer ((d :: ds).takeWhile (Showable answer ·)) ∧
            (some e = none ↔ ∀ next ∈ d :: ds, Showable answer next) := by
        intro hd e
        rw [page_takeWhile_of_not hd, List.append_nil]
        exact ⟨rfl, fun he => absurd he (Option.some_ne_none e), fun hall => absurd (hall d List.mem_cons_self) hd⟩
      cases hfits : Numeral.fits (d.line + 1) with
      | false =>
          rw [run_write_long hfits]
          exact hcut (fun hd => Bool.false_ne_true (hfits.symm.trans hd.1)) .numberTooLong
      | true =>
          obtain ⟨hw', hlines⟩ := sourceLines_spec hread hw h d.file
          rcases hx : (sourceLines read d.file known).run w with ⟨x, w'⟩
          rw [hx] at hw' hlines
          cases x with
          | error e =>
              rw [run_write_unread hfits hx]
              refine hcut (fun hd => ?_) e
              have hok := hd.2
              rw [hlines] at hok
              cases hok
          | ok x =>
              obtain ⟨lines, known'⟩ := x
              obtain ⟨hknown', r, hr, rfl⟩ := hlines
              have hd : Showable answer d := ⟨hfits, by rw [hr]; rfl⟩
              have hsource : source? answer d = lineAt? (linesOf r) d.line := by simp only [source?, hr]
              have hpage : page answer [d] = (text .plain d (lineAt? (linesOf r) d.line)).toList := by
                rw [page, List.flatMap_singleton, toList_text, hsource]
              obtain ⟨htext, hfault⟩ := ih hw' hknown' (written ++ text .plain d (lineAt? (linesOf r) d.line))
              rw [run_write_shown hfits hx]
              refine ⟨htext.trans ?_, hfault.trans ?_⟩
              · rw [List.takeWhile_cons_of_pos (by simpa using hd), ← List.singleton_append, page_append, hpage,
                  String.toList_append, List.append_assoc]
              · rw [List.forall_mem_cons]
                exact (and_iff_right hd).symm

/-- A report goes as far as all diagnostics up to there can be shown. -/
theorem page_takeWhile_iff (before after : List Diagnostic) :
    (∃ rest, page answer ((before ++ after).takeWhile (Showable answer ·)) = page answer before ++ rest) ↔
      ∀ d ∈ before, Showable answer d := by
  constructor
  · rintro ⟨rest, hpage⟩
    have hsplit : page answer before = page answer (before.takeWhile (Showable answer ·)) ++
        page answer (before.dropWhile (Showable answer ·)) := by
      rw [← page_append, List.takeWhile_append_dropWhile]
    rw [List.takeWhile_append] at hpage
    split at hpage
    · next hlength =>
      have hself := (List.takeWhile_prefix (Showable answer ·)).eq_of_length hlength
      simpa using List.takeWhile_eq_self_iff.mp hself
    · -- the report stops within the first part, so nothing may be left of that
      rw [hsplit, List.append_assoc, List.self_eq_append_right, List.append_eq_nil_iff] at hpage
      have hleft := eq_nil_of_page hpage.1
      simpa using List.dropWhile_eq_nil_iff.mp hleft
  · intro hall
    refine ⟨page answer (after.takeWhile (Showable answer ·)), ?_⟩
    rw [List.takeWhile_append_of_pos (by simpa using hall), page_append]

end Terminal

/-- A terminal report shows, without colours, the diagnostics up to the first that cannot be shown. -/
theorem Report.render_terminal {σ : Type} {I : σ → Prop} {answer : String → Except Fault Reading}
    {read : Reader (StateM σ)} {w : σ} (hread : read.Answers I fun path a => a = answer path) (hw : I w) (tool : Tool)
    (groups : Groups) :
    let report := ((render read .plain .terminal tool groups).run w).1
    report.written.toList = Terminal.page answer (groups.diagnostics.takeWhile (Terminal.Showable answer ·)) ∧
      (report.fault = none ↔ ∀ d ∈ groups.diagnostics, Terminal.Showable answer d) := by
  have hnone : Terminal.Remembers answer [] := by
    intro path lines h
    cases h
  exact Terminal.write_spec hread hw hnone groups.diagnostics ""

/-! ## Diagnostics that were moved -/

namespace Batch.Frame

variable {f : Frame} {tokens : List String} {shadows sources : String → Except Fault Reading} {r : Record}
  {d : Diagnostic}

theorem settle_snapped {reading : Reading} {line : Int} (h : (f.settle tokens reading line).1 = .snapped) :
    ∃ text, reading = .text text ∧ (f.settle tokens reading line).2 ∈ (AnchorIndex.build text tokens).lines := by
  cases reading with
  | refused error => cases h
  | silent => cases h
  | text text =>
      refine ⟨text, rfl, ?_⟩
      simp only [settle, Reading.text?] at h ⊢
      cases hsnap : (AnchorIndex.build text tokens).snap? line f.settings.maxSnapDistance with
      | none => simp [hsnap] at h
      | some anchor =>
          have hmoved : anchor ≠ line := by
            rintro rfl
            simp [hsnap] at h
          exact (AnchorIndex.eq_or_mem_of_snap? hsnap).resolve_left hmoved

theorem judge_snapped (h : f.judge tokens shadows sources r = .ok (.placed .snapped d)) :
    ∃ text, sources d.file = .ok (.text text) ∧ d.line ∈ (AnchorIndex.build text tokens).lines := by
  have hsource : ∀ path line, (sources path).map (f.judgeSource tokens r path line) = .ok (.placed .snapped d) →
      ∃ text, sources d.file = .ok (.text text) ∧ d.line ∈ (AnchorIndex.build text tokens).lines := by
    intro path line hj
    obtain ⟨reading, hreading, hv⟩ := map_eq_ok.mp hj
    obtain ⟨hmove, rfl⟩ := Verdict.placed.inj hv
    obtain ⟨text, rfl, hanchor⟩ := settle_snapped hmove
    exact ⟨text, hreading, hanchor⟩
  unfold judge at h
  cases ho : f.origin r with
  | foreign path => simp [ho] at h
  | source path =>
      simp only [ho] at h
      exact hsource _ _ h
  | shadow path source =>
      simp only [ho] at h
      obtain ⟨reading, -, h⟩ := bind_eq_ok.mp h
      obtain ⟨markers, -, h⟩ := bind_eq_ok.mp h
      unfold judgeShadow at h
      split at h
      · cases h
      · exact hsource _ _ h

end Batch.Frame

/-- The blanks behind a directive are no part of it. -/
theorem AnchorIndex.carries_trimRight {line : List Char} (h : Carries ({} : Settings).directiveTokens line) :
    Carries ({} : Settings).directiveTokens (Text.trimRight line) := by
  obtain ⟨token, htoken, gap, hgap, hinner⟩ := h
  have hcolon : ∀ token ∈ ({} : Settings).directiveTokens, token.toList.getLast? = some ':' := by decide
  refine ⟨token, htoken, gap, hgap, Text.infix_dropTailWhile (c := ':') ?_ (by decide) hinner⟩
  rw [← List.cons_append, ← List.cons_append, List.getLast?_append, hcolon token htoken, Option.some_or]

/-! ## A batch on two files -/

theorem Session.run_twoFiles (source : String) :
    let m : Diagnostic := { file := source, line := 0, message := "m" }
    let n : Diagnostic := { file := "/w/a.go", line := 1, message := "n" }
    let outcome := (plain.run "/w" (Machine.ofState .usual id) (Machine.ofState .usual id).read
      (.explicit "c.go:1: m\na.go:3: n" "/w" "/w" (some ⟨[(source, "/w/c.go")]⟩))).run Workspace.twoFiles
    outcome.1.result = .ok (Batch.report "/w" [.placed .fallback m, .placed .snapped n]).1 ∧
      outcome.1.session.counts.snapped = 1 := by
  intro m n
  let q := Batch.Request.explicit "c.go:1: m\na.go:3: n" "/w" "/w" (some ⟨[(source, "/w/c.go")]⟩)
  let f := Batch.Frame.explicit plain.settings "/w" "/w" "/w" (some ⟨[(source, "/w/c.go")]⟩)
  have hframe : (((Batch.frame plain.settings "/w" (Machine.ofState .usual id) q).run.run #[]).run
      Workspace.twoFiles).1.1 = .ok f := Batch.frame_explicit (Machine.ofState .usual id) #[] Workspace.twoFiles
  have hrecords : Record.parsed "c.go:1: m\na.go:3: n" plain.settings.noisePatterns =
      .ok [⟨"c.go", 1, none, "m"⟩, ⟨"a.go", 3, none, "n"⟩] := by rfl
  have hsources : f.sources = [("/w/c.go", source)] := rfl
  obtain ⟨ha, -, hc⟩ := Workspace.read_twoFiles
  have hfirst : f.judge plain.cache.tokens Workspace.twoFiles.read Workspace.twoFiles.read ⟨"c.go", 1, none, "m"⟩ =
      .ok (.placed .fallback m) := by
    have hpath : (Batch.Frame.explicit plain.settings "/w" "/w" "/w" none).resolve "c.go" = "/w/c.go" := by rfl
    have hresolve : f.resolve "c.go" = "/w/c.go" := hpath
    have horigin : f.origin ⟨"c.go", 1, none, "m"⟩ = .shadow "/w/c.go" source := by
      simp [Batch.Frame.origin, hresolve, hsources, Substitution.sourceOf?]
    have hfind : Marker.findAll "x\n" "//line" = .ok [] := rfl
    have hmarkers : f.markersIn (.text "x\n") = .ok [] := hfind
    simp only [Batch.Frame.judge, horigin, hc, ok_bind, hmarkers]
    rfl
  have hsecond : f.judge plain.cache.tokens Workspace.twoFiles.read Workspace.twoFiles.read ⟨"a.go", 3, none, "n"⟩ =
      .ok (.placed .snapped n) := by
    have hpath : (Batch.Frame.explicit plain.settings "/w" "/w" "/w" none).resolve "a.go" = "/w/a.go" := by rfl
    have hresolve : f.resolve "a.go" = "/w/a.go" := hpath
    have hkind : plain.settings.isSource "/w/a.go" = true := by rfl
    have hsource : f.settings.isSource "/w/a.go" = true := hkind
    have horigin : f.origin ⟨"a.go", 3, none, "n"⟩ = .source "/w/a.go" := by
      simp [Batch.Frame.origin, hresolve, hsources, Substitution.sourceOf?, hsource]
    have hbuild : AnchorIndex.build "x\n\t// @if: y  \nz\n" plain.cache.tokens = ⟨[1]⟩ := by rfl
    have hreach : (2 : Int) - 1 ≤ plain.settings.maxSnapDistance := by decide
    exact Batch.Frame.judge_singleton horigin ha hbuild (by decide) hreach
  have hroot : f.workspace = "/w" := by rfl
  have hkeeps : (Machine.ofState .usual id).Keeps (· = Workspace.twoFiles) := Machine.ofState_keeps
  have hanswers : Reader.Answers (Machine.ofState .usual id).read (· = Workspace.twoFiles)
      fun path a => a = Workspace.twoFiles.read path := Machine.ofState_answers
  have hverdicts := mapM_eq_ok.mpr (.cons hfirst (.cons hsecond .nil))
  have hrun := run_of_verdicts hkeeps hanswers rfl hframe hrecords hverdicts
  rw [hroot] at hrun
  exact ⟨hrun.1, (congrArg Counts.snapped hrun.2).trans rfl⟩

/-! ## What is shown of a batch -/

/-- As long as the files stay as they are, a diagnostic that was moved onto a directive has that line for its source
line, and the directive is to be seen in it. A terminal report shows every diagnostic in its turn, with its source
line if it has one, unless it or one before it cannot be shown; a diagnostic has none if its file has no such line or
no text. -/
theorem Session.run_source_lines {σ : Type} (session : Session) (cwd : String) (machine : Machine (StateM σ))
    (answer : String → Except Fault Reading) (q : Batch.Request) (tool : Report.Tool) (w : σ) (g : Groups)
    (htokens : session.cache.tokens = ({} : Settings).directiveTokens)
    (hread : ∀ w', machine.Reached machine.read w w' → ∀ path, ((machine.read path).run w').1 = answer path)
    (hg : ((session.run cwd machine machine.read q).run w).1.result = .ok g) :
    let outcome := (session.run cwd machine machine.read q).run w
    let report := ((Report.render machine.read .plain .terminal tool g).run outcome.2).1
    (∃ f rs vs, (((Batch.frame session.settings cwd machine q).run.run #[]).run w).1.1 = .ok f ∧
      Record.parsed q.output session.settings.noisePatterns = .ok rs ∧
      rs.mapM (f.judge session.cache.tokens answer answer) = .ok vs ∧
      outcome.1.session.counts.snapped = vs.countP (·.move = .snapped) ∧
      ∀ d ∈ g.diagnostics, .placed .snapped d ∈ vs → ∃ (text : String) (k : Nat) (line : List Char),
        answer d.file = .ok (.text text) ∧ d.line = k ∧ (Text.lines text.toList)[k]? = some line ∧
        Terminal.source? answer d = some (String.ofList (Text.trimRight line)) ∧
        AnchorIndex.Carries ["@inco:", "@if:"] (Text.trimRight line)) ∧
    (∀ before d after, g.diagnostics = before ++ d :: after →
      ((∃ rest, report.written.toList = Terminal.page answer (before ++ [d]) ++ rest) ↔
        ∀ e ∈ before ++ [d], Terminal.Showable answer e)) ∧
    (report.fault = none ↔ ∀ d ∈ g.diagnostics, Terminal.Showable answer d) ∧
    (report.fault = none → report.written.toList = Terminal.page answer g.diagnostics) ∧
    ∀ d, Terminal.source? answer d = none ↔
      ∀ text, answer d.file = .ok (.text text) → d.line < 0 ∨ (Text.lines text.toList).length ≤ d.line := by
  intro outcome report
  have hkeeps := Machine.Reached.keeps machine machine.read w
  have hanswers : Reader.Answers machine.read (machine.Reached machine.read w) fun path a => a = answer path :=
    ⟨fun path w' h => hread w' h path, fun path w' h => h.read path⟩
  have hreached : machine.Reached machine.read w outcome.2 := session.run_keeps cwd q hkeeps .start
  obtain ⟨hwritten, hfault⟩ := Report.render_terminal hanswers hreached tool g
  refine ⟨?_, ?_, hfault, ?_, fun d => Terminal.source?_eq_none⟩
  · have hspec := session.run_spec cwd q hkeeps hanswers .start
    rw [hg] at hspec
    obtain ⟨f, rs, vs, hf, hrs, hvs, hreport⟩ := hspec
    simp only [Batch.judged_iff] at hvs
    have hverdicts := mapM_eq_ok.mpr hvs
    refine ⟨f, rs, vs, hf, hrs, hverdicts, congrArg Counts.snapped (Prod.mk.inj hreport).2, fun d _ hmoved => ?_⟩
    obtain ⟨r, -, hjudge⟩ := (mem_of_mapM_eq_ok hverdicts).mp hmoved
    obtain ⟨text, htext, hanchor⟩ := Batch.Frame.judge_snapped hjudge
    rw [htokens] at hanchor
    obtain ⟨k, line, hk, hline, hcarries | ⟨hnone, -⟩⟩ := AnchorIndex.mem_build_iff.mp hanchor
    · refine ⟨text, k, line, htext, hk, hline, ?_, AnchorIndex.carries_trimRight hcarries⟩
      simp only [Terminal.source?, htext, hk, Terminal.lineAt?_natCast, Terminal.linesOf, Reading.text?, hline,
        Option.map_some]
    · cases hnone
  · intro before d after hsplit
    rw [hwritten, hsplit, List.append_cons]
    exact Terminal.page_takeWhile_iff _ _
  · intro hnone
    rw [hwritten, List.takeWhile_eq_self_iff.mpr (by simpa using hfault.mp hnone)]

/-- The file of the first diagnostic is missing; the second is shown with its directive, the blanks behind it left
out. -/
theorem Session.run_source_lines_missing :
    let machine : Machine (StateM Workspace) := Machine.ofState .usual id
    let outcome := (plain.run "/w" machine machine.read
      (.explicit "c.go:1: m\na.go:3: n" "/w" "/w" (some ⟨[("/w/b.go", "/w/c.go")]⟩))).run Workspace.twoFiles
    let m : Diagnostic := { file := "/w/b.go", line := 0, message := "m" }
    let n : Diagnostic := { file := "/w/a.go", line := 1, message := "n" }
    plain.cache.tokens = ({} : Settings).directiveTokens ∧ outcome.1.result = .ok [("/w/b.go", [m]), ("/w/a.go", [n])] ∧
      let report :=
        ((Report.render machine.read .plain .terminal {} [("/w/b.go", [m]), ("/w/a.go", [n])]).run outcome.2).1
      report.fault = none ∧
        report.written = "error: m\n  --> /w/b.go:1\n\nerror: n\n  --> /w/a.go:2\n 2 | \t// @if: y\n\n" := by
  intro machine outcome m n
  have hreport : (Batch.report "/w" [.placed .fallback m, .placed .snapped n]).1 =
      [("/w/b.go", [m]), ("/w/a.go", [n])] := by
    dsimp only [m, n]
    rfl
  have hg := (run_twoFiles "/w/b.go").1.trans (congrArg Except.ok hreport)
  have hread : ∀ w', (Machine.ofState .usual id).Reached (Machine.ofState .usual id).read Workspace.twoFiles w' →
      ∀ path, (((Machine.ofState .usual id).read path).run w').1 = Workspace.twoFiles.read path := by
    intro w' hw' path
    rw [Machine.eq_of_reached hw']
    rfl
  have hlines := run_source_lines plain "/w" (Machine.ofState .usual id) Workspace.twoFiles.read _ {}
    Workspace.twoFiles _ rfl hread hg
  obtain ⟨ha, hb, -⟩ := Workspace.read_twoFiles
  have hshowable : ∀ d ∈ Groups.diagnostics [("/w/b.go", [m]), ("/w/a.go", [n])],
      Terminal.Showable Workspace.twoFiles.read d := by
    refine List.forall_mem_cons.mpr ⟨⟨by decide, ?_⟩, List.forall_mem_singleton.mpr ⟨by decide, ?_⟩⟩
    · rw [hb]
      rfl
    · rw [ha]
      rfl
  have hm : Terminal.source? Workspace.twoFiles.read m = none := by
    simp only [Terminal.source?, m, hb]
    rfl
  have hn : Terminal.source? Workspace.twoFiles.read n = some "\t// @if: y" := by
    simp only [Terminal.source?, n, ha]
    rfl
  have hpage : Terminal.page Workspace.twoFiles.read [m, n] =
      "error: m\n  --> /w/b.go:1\n\nerror: n\n  --> /w/a.go:2\n 2 | \t// @if: y\n\n".toList := by
    simp only [Terminal.page, List.flatMap_cons, hm, hn, m, n]
    rfl
  obtain ⟨-, -, hfault, hwritten, -⟩ := hlines
  have hfault := hfault.mpr hshowable
  dsimp only [machine, outcome]
  exact ⟨rfl, hg, hfault, String.toList_inj.mp ((hwritten hfault).trans hpage)⟩

/-- A NUL in the name of the first file, and the second diagnostic is lost, although it was moved onto a directive. -/
theorem Session.run_source_lines_lost :
    let machine : Machine (StateM Workspace) := Machine.ofState .usual id
    let outcome := (plain.run "/w" machine machine.read
      (.explicit "c.go:1: m\na.go:3: n" "/w" "/w" (some ⟨[("/w/b\x00.go", "/w/c.go")]⟩))).run Workspace.twoFiles
    let m : Diagnostic := { file := "/w/b\x00.go", line := 0, message := "m" }
    let n : Diagnostic := { file := "/w/a.go", line := 1, message := "n" }
    outcome.1.result = .ok [("/w/b\x00.go", [m]), ("/w/a.go", [n])] ∧ outcome.1.session.counts.snapped = 1 ∧
      let report :=
        ((Report.render machine.read .plain .terminal {} [("/w/b\x00.go", [m]), ("/w/a.go", [n])]).run outcome.2).1
      report.fault = some .nulInPath ∧ report.written = "" := by
  intro machine outcome m n
  have hreport : (Batch.report "/w" [.placed .fallback m, .placed .snapped n]).1 =
      [("/w/b\x00.go", [m]), ("/w/a.go", [n])] := by
    dsimp only [m, n]
    rfl
  obtain ⟨hg, hsnapped⟩ := run_twoFiles "/w/b\x00.go"
  have hkeeps : (Machine.ofState .usual id).Keeps (· = Workspace.twoFiles) := Machine.ofState_keeps
  have hstate := plain.run_keeps "/w"
    (.explicit "c.go:1: m\na.go:3: n" "/w" "/w" (some ⟨[("/w/b\x00.go", "/w/c.go")]⟩)) hkeeps rfl
  have hnul : Workspace.twoFiles.read m.file = .error .nulInPath := Workspace.read_of_hasNul (by decide)
  have hread : ((Machine.ofState .usual id).read m.file).run Workspace.twoFiles =
      (.error .nulInPath, Workspace.twoFiles) := congrArg (·, Workspace.twoFiles) hnul
  have hlines : (Terminal.sourceLines (Machine.ofState .usual id).read m.file []).run Workspace.twoFiles =
      (.error .nulInPath, Workspace.twoFiles) := by
    simp only [Terminal.sourceLines, List.find?_nil, Option.map_none, StateT.run_bind, hread]
    rfl
  have hwrite : (Terminal.write .plain (Machine.ofState .usual id).read [m, n] [] "").run Workspace.twoFiles =
      (("", some .nulInPath), Workspace.twoFiles) := Terminal.run_write_unread (by decide) hlines [n] ""
  dsimp only [machine, outcome]
  refine ⟨hg.trans (congrArg Except.ok hreport), hsnapped, ?_⟩
  rw [hstate]
  have hdiagnostics : Groups.diagnostics [("/w/b\x00.go", [m]), ("/w/a.go", [n])] = [m, n] := rfl
  simp only [Report.render, hdiagnostics, StateT.run_bind, hwrite]
  exact ⟨rfl, rfl⟩

end Backmap
