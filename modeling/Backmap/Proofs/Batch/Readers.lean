import Backmap.Proofs.Batch.Balance

/-!
# What a batch owes to its reader

A batch whose base and table are given looks at files through its reader only. The reader moves lines: which files
and messages are told is settled without it. What it says of files outside the workspace is not to be seen in the
groups, although such files are read.
-/

namespace Backmap

variable {σ σ' : Type}

/-! ## Requests that leave nothing to look for -/

/-- Nothing is found, and nothing changes. -/
def Machine.bare : Machine (StateM σ) where
  read _ := pure (.ok .silent)
  isFile _ := pure (.ok false)
  folders _ := pure (.ok [])
  json := .usual

theorem Machine.bare_keeps (I : σ → Prop) : Machine.bare.Keeps I :=
  ⟨fun _ _ h => h, fun _ _ h => h, fun _ _ h => h⟩

/-- The states that reading can lead to from `w`. -/
inductive Reader.Reached (read : Reader (StateM σ)) (w : σ) : σ → Prop
  | start : Reached read w w
  | next {v : σ} (path : String) : Reached read w v → Reached read w ((read path).run v).2

/-- The machine is not asked for anything, so only the reader has to keep to `I`. -/
theorem Session.run_spec_explicit {I : σ → Prop} {A : String → Except Fault Reading → Prop} (session : Session)
    (cwd : String) (machine : Machine (StateM σ)) {read : Reader (StateM σ)} (output root base : String)
    (table : Option Substitution) {w : σ} (hread : read.Answers I A) (hw : I w) :
    Batch.Outcome A session.cache.tokens (.ok (.explicit session.settings cwd root base table))
      (Record.parsed output session.settings.noisePatterns)
      ((session.run cwd machine read (.explicit output root base table)).run w).1.result
      ((session.run cwd machine read (.explicit output root base table)).run w).1.session.counts := by
  have h := session.run_spec cwd (.explicit output root base table) (Machine.bare_keeps I) hread hw
  rw [Batch.frame_explicit Machine.bare #[] w] at h
  exact h

theorem Session.run_ok_explicit {I : σ → Prop} {A : String → Except Fault Reading → Prop} {session : Session}
    {cwd : String} {machine : Machine (StateM σ)} {read : Reader (StateM σ)} {output root base : String}
    {table : Option Substitution} {w : σ} {g : Groups} (hread : read.Answers I A) (hw : I w)
    (h : ((session.run cwd machine read (.explicit output root base table)).run w).1.result = .ok g) :
    ∃ rs vs, Record.parsed output session.settings.noisePatterns = .ok rs ∧
      List.Forall₂ (fun r v => Batch.Judged A (.explicit session.settings cwd root base table)
        session.cache.tokens r (.ok v)) rs vs ∧
      g = (Batch.report (Path.normalize cwd root) vs).1 ∧
      ((session.run cwd machine read (.explicit output root base table)).run w).1.session.counts =
        Batch.tally (Path.normalize cwd root) vs := by
  have hspec := session.run_spec_explicit cwd machine output root base table hread hw
  rw [h] at hspec
  obtain ⟨f, rs, vs, ⟨⟩, hrs, hvs, hreport⟩ := hspec
  obtain ⟨hg, hcounts⟩ := Prod.mk.inj hreport
  exact ⟨rs, vs, hrs, hvs, hg, hcounts⟩

/-- A reader that always gives the same answer for a path. -/
def Reader.fixed (answer : String → Reading) : Reader (StateM σ) := fun path => pure (.ok (answer path))

theorem Session.run_fixed {answer : String → Reading} {session : Session} {cwd output root base : String}
    {table : Option Substitution} {rs : List Record} {vs : List Batch.Verdict} (w : σ)
    (hrs : Record.parsed output session.settings.noisePatterns = .ok rs)
    (hvs : rs.mapM ((Batch.Frame.explicit session.settings cwd root base table).judge session.cache.tokens
      (fun path => .ok (answer path)) fun path => .ok (answer path)) = .ok vs) :
    ((session.run cwd Machine.bare (Reader.fixed answer) (.explicit output root base table)).run w).1.result =
      .ok (Batch.report (Path.normalize cwd root) vs).1 :=
  (run_of_verdicts (I := fun _ => True) (Machine.bare_keeps _) ⟨fun _ _ _ => rfl, fun _ _ _ => trivial⟩ trivial
    (Batch.frame_explicit Machine.bare #[] w) hrs hvs).1

/-! ## What is told, the lines left out -/

/-- Files with the messages that are told of them. -/
def Groups.told (g : Groups) : List (String × String) := g.diagnostics.map fun d => (d.file, d.message)

namespace Batch

def Verdict.told? (v : Verdict) : Option (String × String) := v.diagnostic?.map fun d => (d.file, d.message)

def Frame.told? (f : Frame) (r : Record) : Option (String × String) := (f.file? r).map (·, r.message)

variable {A : String → Except Fault Reading → Prop} {f : Frame} {tokens : List String} {rs : List Record}
  {vs vs' : List Verdict} {workspace : String}

theorem told_of_judged (h : List.Forall₂ (fun r v => Judged A f tokens r (.ok v)) rs vs) :
    vs.map Verdict.told? = rs.map f.told? := by
  induction h with
  | nil => rfl
  | cons hv hvs ih => rw [List.map_cons, List.map_cons, ih, Verdict.told?, file_of_judged hv, Frame.told?]

theorem placed_told (vs : List Verdict) :
    (placed vs).map (fun d => (d.file, d.message)) = (vs.map Verdict.told?).filterMap id := by
  rw [placed, List.map_filterMap, List.filterMap_map]
  rfl

theorem inside_told (workspace : String) (vs : List Verdict) :
    (inside workspace vs).map (fun d => (d.file, d.message)) =
      ((vs.map Verdict.told?).filterMap id).filter (Path.isWithin ·.1 workspace) := by
  rw [inside, ← placed_told, List.filter_map]
  rfl

theorem files_report (workspace : String) (vs : List Verdict) :
    (report workspace vs).1.map (·.1) = firsts id ((inside workspace vs).map (·.file)) := by
  have hfile : ∀ d e : Diagnostic, d.key = e.key → d.file = e.file := fun d e h => congrArg Prod.fst h
  rw [report, Groups.files_ofList, kept, firsts_map_firsts _ _ hfile]

theorem mem_told_report {x : String × String} : x ∈ (report workspace vs).1.told ↔
    x ∈ (inside workspace vs).map fun d => (d.file, d.message) := by
  have hkey : ∀ d e : Diagnostic, d.key = e.key → (d.file, d.message) = (e.file, e.message) := by
    intro d e h
    obtain ⟨hfile, h⟩ := Prod.mk.inj h
    rw [hfile, (Prod.mk.inj h).2]
  rw [report, Groups.told, ((Groups.diagnostics_ofList _).map _).mem_iff, kept, mem_map_firsts_of _ _ hkey]

/-- Of verdicts that say the same but for the lines, the reports say the same but for the lines. -/
theorem report_told (workspace : String) (h : vs.map Verdict.told? = vs'.map Verdict.told?) :
    (∀ x, x ∈ (report workspace vs).1.told ↔ x ∈ (report workspace vs').1.told) ∧
      (report workspace vs).1.map (·.1) = (report workspace vs').1.map (·.1) ∧
      (tally workspace vs).parsed = (tally workspace vs').parsed ∧
      (tally workspace vs).unattributed = (tally workspace vs').unattributed ∧
      (tally workspace vs).outside = (tally workspace vs').outside := by
  have hinside : (inside workspace vs).map (fun d => (d.file, d.message)) =
      (inside workspace vs').map fun d => (d.file, d.message) := by rw [inside_told, inside_told, h]
  have hplaced : (placed vs).map (fun d => (d.file, d.message)) =
      (placed vs').map fun d => (d.file, d.message) := by rw [placed_told, placed_told, h]
  refine ⟨fun x => by rw [mem_told_report, mem_told_report, hinside], ?_, ?_, ?_, ?_⟩
  · have hfiles := congrArg (List.map Prod.fst) hinside
    simp only [List.map_map, Function.comp_def] at hfiles
    rw [files_report, files_report, hfiles]
  · simpa [tally] using congrArg List.length h
  · have hnone := congrArg (List.countP Option.isNone) h
    simpa [tally, List.countP_map, Function.comp_def, Verdict.told?] using hnone
  · have houtside := congrArg (List.countP (!Path.isWithin ·.1 workspace)) hplaced
    simpa [tally, List.countP_map, Function.comp_def] using houtside

end Batch

/-- Two batches with any two readers tell the same messages of the same files, with the files in the same order, and
drop as many records for want of a file in the workspace. -/
theorem Session.run_told_eq (session session' : Session) (cwd : String) (machine : Machine (StateM σ))
    (machine' : Machine (StateM σ')) (read : Reader (StateM σ)) (read' : Reader (StateM σ')) (output root base : String)
    (table : Option Substitution) (w : σ) (w' : σ') (g g' : Groups) (hs : session.settings = session'.settings)
    (h : ((session.run cwd machine read (.explicit output root base table)).run w).1.result = .ok g)
    (h' : ((session'.run cwd machine' read' (.explicit output root base table)).run w').1.result = .ok g') :
    let c := ((session.run cwd machine read (.explicit output root base table)).run w).1.session.counts
    let c' := ((session'.run cwd machine' read' (.explicit output root base table)).run w').1.session.counts
    (∀ file message, (file, message) ∈ g.told ↔ (file, message) ∈ g'.told) ∧ g.map (·.1) = g'.map (·.1) ∧
      c.parsed = c'.parsed ∧ c.unattributed = c'.unattributed ∧ c.outside = c'.outside := by
  intro c c'
  have hany : read.Answers (fun _ => True) fun _ _ => True := ⟨fun _ _ _ => trivial, fun _ _ _ => trivial⟩
  have hany' : read'.Answers (fun _ => True) fun _ _ => True := ⟨fun _ _ _ => trivial, fun _ _ _ => trivial⟩
  obtain ⟨rs, vs, hrs, hvs, rfl, hc⟩ := run_ok_explicit hany trivial h
  obtain ⟨rs', vs', hrs', hvs', rfl, hc'⟩ := run_ok_explicit hany' trivial h'
  rw [← hs] at hrs' hvs'
  obtain rfl : rs = rs' := Except.ok.inj (hrs.symm.trans hrs')
  obtain ⟨htold, hfiles, hparsed, hunattributed, houtside⟩ :=
    Batch.report_told (Path.normalize cwd root)
      ((Batch.told_of_judged hvs).trans (Batch.told_of_judged hvs').symm)
  dsimp only [c, c']
  rw [hc, hc']
  exact ⟨fun file message => htold (file, message), hfiles, hparsed, hunattributed, houtside⟩

/-- Two records come to one diagnostic if the source can be read, and to two if it cannot. -/
theorem Session.run_told_eq_unreadable :
    let run := fun answer => ((plain.run "/w" Machine.bare (Reader.fixed fun _ => answer)
      (.explicit "a.go:3: oops\n./a.go:2: oops" "/w" "/w" none)).run ()).1
    let d : Int → Diagnostic := fun line => { file := "/w/a.go", line, message := "oops" }
    (run (.text "x\n// @inco: y\nz\n")).result = .ok [("/w/a.go", [d 1])] ∧
      (run .silent).result = .ok [("/w/a.go", [d 2, d 1])] ∧
      (∀ file message, (file, message) ∈ Groups.told [("/w/a.go", [d 1])] ↔
        (file, message) ∈ Groups.told [("/w/a.go", [d 2, d 1])]) ∧
      let c := (run (.text "x\n// @inco: y\nz\n")).session.counts
      let c' := (run .silent).session.counts
      c.parsed = c'.parsed ∧ c.unattributed = c'.unattributed ∧ c.outside = c'.outside := by
  intro run d
  have hread := Batch.judged_repeated fun _ => .ok (.text "x\n// @inco: y\nz\n")
  have hunread : List.mapM ((Batch.Frame.explicit plain.settings "/w" "/w" "/w" none).judge plain.cache.tokens
        (fun _ => .ok .silent) fun _ => .ok .silent)
      [⟨"a.go", 3, none, "oops"⟩, ⟨"./a.go", 2, none, "oops"⟩] =
      .ok [.placed .fallback (d 2), .placed .fallback (d 1)] := by
    dsimp only [d]
    rfl
  have hreport : (Batch.report (Path.normalize "/w" "/w") [.placed .fallback (d 2), .placed .fallback (d 1)]).1 =
      [("/w/a.go", [d 2, d 1])] := by dsimp only [d]; rfl
  have hrun := (run_fixed () Record.parsed_repeated hread).trans (congrArg Except.ok Batch.report_repeated)
  have hrun' := (run_fixed () Record.parsed_repeated hunread).trans (congrArg Except.ok hreport)
  have htold := run_told_eq plain plain "/w" Machine.bare Machine.bare _ _ _ _ _ _ () () _ _ rfl hrun hrun'
  dsimp only [run] at htold ⊢
  exact ⟨hrun, hrun', htold.1, htold.2.2⟩

/-! ## Files outside the workspace -/

theorem Substitution.mem_of_sourceOf? {reversed : List (String × String)} {shadow source : String}
    (h : sourceOf? reversed shadow = some source) : shadow ∈ reversed.map (·.1) := by
  obtain ⟨pair, hpair, -⟩ := Option.map_eq_some_iff.mp h
  have hkey : pair.1 = shadow := by simpa using List.find?_some hpair
  exact hkey ▸ List.mem_map_of_mem (List.mem_of_find?_eq_some hpair)

namespace Batch

/-- What is read at a path can show: it is that of a file in the workspace, or of a shadow. -/
def Relevant (workspace : String) (sources : List (String × String)) (path : String) : Prop :=
  Path.isWithin path workspace = true ∨ path ∈ sources.map (·.1)

/-- The diagnostic of a verdict, if it lies in the workspace. -/
def Verdict.shown? (workspace : String) (v : Verdict) : Option Diagnostic :=
  v.diagnostic?.filter (Path.isWithin ·.file workspace)

variable {A : String → Except Fault Reading → Prop} {answer : String → Except Fault Reading} {f : Frame}
  {tokens : List String} {r : Record} {v v' : Verdict} {file : String}

theorem inside_eq_shown (workspace : String) (vs : List Verdict) :
    inside workspace vs = vs.filterMap (Verdict.shown? workspace) := by
  rw [inside, placed, List.filter_filterMap]
  rfl

theorem Frame.sourceOf?_of_origin {path source : String} (h : f.origin r = .shadow path source) :
    Substitution.sourceOf? f.sources path = some source := by
  unfold origin at h
  cases hsource : Substitution.sourceOf? f.sources (f.resolve r.path) with
  | some name =>
      simp only [hsource, Origin.shadow.injEq] at h
      rw [← h.1, ← h.2, hsource]
  | none =>
      simp only [hsource] at h
      split at h <;> simp at h

theorem Frame.relevant_of_mem_paths (hfile : f.file? r = some file) (hwithin : Path.isWithin file f.workspace = true) :
    ∀ path ∈ f.paths r, Relevant f.workspace f.sources path := by
  unfold file? at hfile
  unfold paths
  cases ho : f.origin r with
  | foreign path => simp
  | source path =>
      simp only [ho, Option.some.injEq] at hfile
      simp only [List.mem_singleton, forall_eq]
      exact .inl (hfile ▸ hwithin)
  | shadow path source =>
      simp only [ho, Option.some.injEq] at hfile
      simp only [List.forall_mem_cons, List.not_mem_nil, false_implies, implies_true, and_true]
      exact ⟨.inr (Substitution.mem_of_sourceOf? (sourceOf?_of_origin ho)), .inl (hfile ▸ hwithin)⟩

theorem shown_of_outside (h : Judged A f tokens r (.ok v))
    (hfile : ∀ file, f.file? r = some file → Path.isWithin file f.workspace = false) :
    v.shown? f.workspace = none := by
  have htold := file_of_judged h
  unfold Verdict.shown?
  cases hd : v.diagnostic? with
  | none => rfl
  | some d =>
      rw [hd, Option.map_some] at htold
      obtain ⟨file, hf, he⟩ := Option.map_eq_some_iff.mp htold.symm
      obtain ⟨rfl, -⟩ := Prod.mk.inj he
      simp [hfile d.file hf]

/-- Two verdicts on a record show the same, if the reader has one answer for each path that counts. -/
theorem shown_of_judged (hA : ∀ path x, A path x → Relevant f.workspace f.sources path → x = answer path)
    (h : Judged A f tokens r (.ok v)) (h' : Judged A f tokens r (.ok v')) :
    v.shown? f.workspace = v'.shown? f.workspace := by
  by_cases hin : ∃ file, f.file? r = some file ∧ Path.isWithin file f.workspace = true
  · obtain ⟨file, hfile, hwithin⟩ := hin
    -- every path that is read for the record counts, so both readers give it one text
    have hrelevant := Frame.relevant_of_mem_paths hfile hwithin
    obtain ⟨shadows, sources, hshadows, hsources, hj⟩ := h
    obtain ⟨shadows', sources', hshadows', hsources', hj'⟩ := h'
    have hjudge : f.judge tokens shadows sources r = f.judge tokens shadows' sources' r := by
      refine Frame.judge_congr rfl rfl rfl rfl ?_ ?_
      · intro path hpath
        rw [hA path _ (hshadows path) (hrelevant path hpath), hA path _ (hshadows' path) (hrelevant path hpath)]
      · intro path hpath
        rw [hA path _ (hsources path) (hrelevant path hpath), hA path _ (hsources' path) (hrelevant path hpath)]
    rw [hj, hj'] at hjudge
    rw [Except.ok.inj hjudge]
  · have hout : ∀ file, f.file? r = some file → Path.isWithin file f.workspace = false := by
      intro file hfile
      exact Bool.eq_false_iff.mpr fun hwithin => hin ⟨file, hfile, hwithin⟩
    rw [shown_of_outside h hout, shown_of_outside h' hout]

theorem inside_of_judged {rs : List Record} {vs vs' : List Verdict}
    (h : List.Forall₂ (fun r v => Judged A f tokens r (.ok v)) rs vs)
    (h' : List.Forall₂ (fun r v => Judged A f tokens r (.ok v)) rs vs')
    (hA : ∀ path x, A path x → Relevant f.workspace f.sources path → x = answer path) :
    inside f.workspace vs = inside f.workspace vs' := by
  rw [inside_eq_shown, inside_eq_shown]
  induction h generalizing vs' with
  | nil =>
      cases h'
      rfl
  | cons hv hvs ih =>
      cases h' with
      | cons hv' hvs' => rw [List.filterMap_cons, List.filterMap_cons, shown_of_judged hA hv hv', ih hvs']

end Batch

/-- Two batches whose readers agree on the files in the workspace and on the shadows tell the same. Elsewhere the
readers may answer as they like, and otherwise each time. -/
theorem Session.run_eq_of_agree (session session' : Session) (cwd : String) (machine : Machine (StateM σ))
    (machine' : Machine (StateM σ')) (read : Reader (StateM σ)) (read' : Reader (StateM σ')) (output root base : String)
    (table : Option Substitution) (answer : String → Except Fault Reading) (w : σ) (w' : σ') (g g' : Groups)
    (hs : session.settings = session'.settings) (ht : session.cache.tokens = session'.cache.tokens)
    (hread : ∀ v, read.Reached w v → ∀ path,
      Batch.Relevant (Path.normalize cwd root) (table.getD {}).reverse.1 path → ((read path).run v).1 = answer path)
    (hread' : ∀ v, read'.Reached w' v → ∀ path,
      Batch.Relevant (Path.normalize cwd root) (table.getD {}).reverse.1 path → ((read' path).run v).1 = answer path)
    (h : ((session.run cwd machine read (.explicit output root base table)).run w).1.result = .ok g)
    (h' : ((session'.run cwd machine' read' (.explicit output root base table)).run w').1.result = .ok g') :
    g = g' := by
  let A : String → Except Fault Reading → Prop := fun path x =>
    Batch.Relevant (Path.normalize cwd root) (table.getD {}).reverse.1 path → x = answer path
  have hanswers : read.Answers (read.Reached w) A := ⟨fun path v hv => hread v hv path, fun path v hv => hv.next path⟩
  have hanswers' : read'.Answers (read'.Reached w') A :=
    ⟨fun path v hv => hread' v hv path, fun path v hv => hv.next path⟩
  obtain ⟨rs, vs, hrs, hvs, rfl, -⟩ := run_ok_explicit hanswers .start h
  obtain ⟨rs', vs', hrs', hvs', rfl, -⟩ := run_ok_explicit hanswers' .start h'
  rw [← hs] at hrs' hvs'
  rw [← ht] at hvs'
  obtain rfl : rs = rs' := Except.ok.inj (hrs.symm.trans hrs')
  have hA : ∀ path x, A path x →
      Batch.Relevant (Path.normalize cwd root) (table.getD {}).reverse.1 path → x = answer path := fun _ _ hx => hx
  have hinside := Batch.inside_of_judged hvs hvs' hA
  exact congrArg (fun ds => Groups.ofList (firsts Diagnostic.key ds)) hinside

/-- The answers about a shadow, its source, and a file outside the workspace that can be read or not. -/
def Reader.sample (outside : Reading) (path : String) : Reading :=
  if path = "/v/b.go" then outside
  else if path = "/s/a.go" then .text "package a\n//line /w/a.go:1\nx\ny\n"
  else .text "// @inco: x\n\n"

/-- A record in a shadow that lies elsewhere, and one in a file elsewhere that only one of the readers can read. -/
theorem Session.run_eq_of_agree_elsewhere :
    let run := fun outside => ((plain.run "/w" Machine.bare (Reader.fixed (Reader.sample outside))
      (.explicit "/s/a.go:4: m\n/v/b.go:3: n" "/w" "/w" (some ⟨[("/w/a.go", "/s/a.go")]⟩))).run ()).1
    let d : Diagnostic := { file := "/w/a.go", line := 0, message := "m" }
    ∃ g g', (run (.text "// @if: y\n")).result = .ok g ∧ (run .silent).result = .ok g' ∧ g = g' ∧
      g = [("/w/a.go", [d])] := by
  intro run d
  have hrecords : Record.parsed "/s/a.go:4: m\n/v/b.go:3: n" plain.settings.noisePatterns =
      .ok [⟨"/s/a.go", 4, none, "m"⟩, ⟨"/v/b.go", 3, none, "n"⟩] := by rfl
  let f := Batch.Frame.explicit plain.settings "/w" "/w" "/w" (some ⟨[("/w/a.go", "/s/a.go")]⟩)
  have hshadow : ∀ outside, f.judge plain.cache.tokens (fun path => .ok (Reader.sample outside path))
      (fun path => .ok (Reader.sample outside path)) ⟨"/s/a.go", 4, none, "m"⟩ = .ok (.placed .snapped d) := by
    intro outside
    have horigin : f.origin ⟨"/s/a.go", 4, none, "m"⟩ = .shadow "/s/a.go" "/w/a.go" := by
      dsimp only [f]
      rfl
    have htext : Reader.sample outside "/s/a.go" = .text "package a\n//line /w/a.go:1\nx\ny\n" := by
      simp [Reader.sample]
    have htext' : Reader.sample outside "/w/a.go" = .text "// @inco: x\n\n" := by simp [Reader.sample]
    have hfind : Marker.findAll "package a\n//line /w/a.go:1\nx\ny\n" "//line" = .ok [⟨1, "/w/a.go", 1⟩] := by rfl
    have hmarkers : f.markersIn (.text "package a\n//line /w/a.go:1\nx\ny\n") = .ok [⟨1, "/w/a.go", 1⟩] := hfind
    have hresolve : Marker.resolve? [⟨1, "/w/a.go", 1⟩] (4 - 1 : Nat) = some 1 := by decide
    have hbuild : AnchorIndex.build "// @inco: x\n\n" plain.cache.tokens = ⟨[0]⟩ := by rfl
    have hsettle : f.settle plain.cache.tokens (.text "// @inco: x\n\n") 1 = (.snapped, 0) :=
      f.settle_singleton hbuild (by decide) (by decide)
    simp only [Batch.Frame.judge, horigin, htext, ok_bind, hmarkers, Batch.Frame.judgeShadow, hresolve, htext',
      Except.map, Batch.Frame.judgeSource, hsettle]
    rfl
  have houtside : f.origin ⟨"/v/b.go", 3, none, "n"⟩ = .source "/v/b.go" := by
    dsimp only [f]
    rfl
  have hbuild : AnchorIndex.build "// @if: y\n" plain.cache.tokens = ⟨[0]⟩ := by rfl
  have hread : List.mapM (f.judge plain.cache.tokens (fun path => .ok (Reader.sample (.text "// @if: y\n") path))
        fun path => .ok (Reader.sample (.text "// @if: y\n") path))
      [⟨"/s/a.go", 4, none, "m"⟩, ⟨"/v/b.go", 3, none, "n"⟩] =
      .ok [.placed .snapped d, .placed .snapped { file := "/v/b.go", line := 0, message := "n" }] :=
    mapM_eq_ok.mpr (.cons (hshadow _)
      (.cons (Batch.Frame.judge_singleton houtside rfl hbuild (by decide) (by decide)) .nil))
  have hunread : List.mapM (f.judge plain.cache.tokens (fun path => .ok (Reader.sample .silent path))
        fun path => .ok (Reader.sample .silent path))
      [⟨"/s/a.go", 4, none, "m"⟩, ⟨"/v/b.go", 3, none, "n"⟩] =
      .ok [.placed .snapped d, .placed .fallback { file := "/v/b.go", line := 2, message := "n" }] :=
    mapM_eq_ok.mpr (.cons (hshadow _) (.cons (by dsimp only [f, d]; rfl) .nil))
  have hsample : ∀ outside path, Batch.Relevant (Path.normalize "/w" "/w") [("/s/a.go", "/w/a.go")] path →
      Reader.sample outside path = Reader.sample .silent path := by
    intro outside path hpath
    have hne : path ≠ "/v/b.go" := by
      have hout : Path.isWithin "/v/b.go" (Path.normalize "/w" "/w") = false := by rfl
      rintro rfl
      rcases hpath with h | h
      · rw [hout] at h
        cases h
      · simp at h
    simp only [Reader.sample, hne, if_false]
  have hrun := run_fixed () hrecords hread
  have hrun' := run_fixed () hrecords hunread
  dsimp only [run]
  refine ⟨_, _, hrun, hrun', ?_, by dsimp only [d]; rfl⟩
  refine run_eq_of_agree plain plain "/w" Machine.bare Machine.bare _ _ _ _ _ _
    (fun path => .ok (Reader.sample .silent path)) () () _ _ rfl rfl ?_ ?_ hrun hrun'
  · intro v _ path hpath
    exact congrArg Except.ok (hsample _ path hpath)
  · exact fun v _ path _ => rfl

end Backmap
