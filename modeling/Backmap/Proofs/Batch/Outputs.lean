import Backmap.Proofs.Batch.Readers

/-!
# What a batch owes to its output

Of each record of the output three things count: the path it leads to, the line, and the message. As long as the
output says the same of these, however often and in whichever order, the same set of diagnostics is told of each file.
-/

namespace Backmap

/-! ## Results side by side -/

/-- Two results are both values, and these are related, or both are faults. -/
inductive Matched {α β : Type} (R : α → β → Prop) : Except Fault α → Except Fault β → Prop
  | ok {a : α} {b : β} : R a b → Matched R (.ok a) (.ok b)
  | error {e e' : Fault} : Matched R (.error e) (.error e')

namespace Matched

variable {α β γ δ : Type} {R : α → β → Prop} {S : γ → δ → Prop} {x : Except Fault α} {y : Except Fault β}

theorem refl {R : α → α → Prop} (h : ∀ a, x = .ok a → R a a) : Matched R x x := by
  cases x with
  | ok a => exact .ok (h a rfl)
  | error e => exact .error

theorem mono {R' : α → β → Prop} (h : Matched R x y) (hR : ∀ a b, R a b → R' a b) : Matched R' x y := by
  cases h with
  | ok hab => exact .ok (hR _ _ hab)
  | error => exact .error

theorem bind {k : α → Except Fault γ} {l : β → Except Fault δ} (h : Matched R x y)
    (hkl : ∀ a b, x = .ok a → y = .ok b → R a b → Matched S (k a) (l b)) : Matched S (x >>= k) (y >>= l) := by
  cases h with
  | ok hab => exact hkl _ _ rfl rfl hab
  | error => exact .error

theorem of_map {g : α → γ} {g' : β → δ} {z : Except Fault γ} {z' : Except Fault δ} (hx : x.map g = z)
    (hy : y.map g' = z') (h : Matched S z z') (hR : ∀ a b, S (g a) (g' b) → R a b) : Matched R x y := by
  cases h with
  | ok hab =>
      obtain ⟨a, rfl, rfl⟩ := map_eq_ok.mp hx
      obtain ⟨b, rfl, rfl⟩ := map_eq_ok.mp hy
      exact .ok (hR a b hab)
  | error =>
      rw [map_eq_error.mp hx, map_eq_error.mp hy]
      exact .error

theorem of_ok {a : α} {b : β} (h : Matched R x y) (hx : x = .ok a) (hy : y = .ok b) : R a b := by
  subst hx hy
  cases h with
  | ok hab => exact hab

end Matched

/-- Lists of results with the same members end alike, and bring the same members. -/
theorem mapM_matched {α β : Type} {g : α → Except Fault β} {as as' : List α}
    (h : ∀ a ∈ as, ∃ a' ∈ as', g a' = g a) (h' : ∀ a' ∈ as', ∃ a ∈ as, g a = g a') :
    Matched (fun bs bs' => ∀ b, b ∈ bs ↔ b ∈ bs') (as.mapM g) (as'.mapM g) := by
  have hok : (∃ bs, as.mapM g = .ok bs) ↔ ∃ bs', as'.mapM g = .ok bs' := by
    rw [exists_mapM_eq_ok, exists_mapM_eq_ok]
    constructor
    · intro hall a' ha'
      obtain ⟨a, ha, he⟩ := h' a' ha'
      exact he ▸ hall a ha
    · intro hall a ha
      obtain ⟨a', ha', he⟩ := h a ha
      exact he ▸ hall a' ha'
  cases hbs : as.mapM g with
  | ok bs =>
      obtain ⟨bs', hbs'⟩ := hok.mp ⟨bs, hbs⟩
      rw [hbs']
      refine .ok fun b => ?_
      rw [mem_of_mapM_eq_ok hbs, mem_of_mapM_eq_ok hbs']
      constructor
      · rintro ⟨a, ha, hb⟩
        obtain ⟨a', ha', he⟩ := h a ha
        exact ⟨a', ha', he.trans hb⟩
      · rintro ⟨a', ha', hb⟩
        obtain ⟨a, ha, he⟩ := h' a' ha'
        exact ⟨a, ha, he.trans hb⟩
  | error e =>
      cases hbs' : as'.mapM g with
      | ok bs' =>
          obtain ⟨bs, hbs''⟩ := hok.mpr ⟨bs', hbs'⟩
          cases hbs.symm.trans hbs''
      | error e' => exact .error

/-! ## Sets of diagnostics -/

/-- The same set of diagnostics is told of each file. -/
def Groups.SameSet (g g' : Groups) : Prop :=
  ∀ file d, (∃ ds, (file, ds) ∈ g ∧ d ∈ ds) ↔ ∃ ds, (file, ds) ∈ g' ∧ d ∈ ds

theorem Groups.told_in_ofList {ds : List Diagnostic} {file : String} {d : Diagnostic} :
    (∃ es, (file, es) ∈ ofList ds ∧ d ∈ es) ↔ d ∈ ds ∧ d.file = file := by
  constructor
  · rintro ⟨es, hes, hd⟩
    obtain ⟨rfl, -⟩ := mem_ofList hes
    simpa using hd
  · rintro ⟨hd, rfl⟩
    obtain ⟨⟨name, es⟩, hes, rfl⟩ := List.mem_map.mp (mem_files.mpr ⟨d, hd, rfl⟩)
    obtain ⟨rfl, -⟩ := mem_ofList hes
    exact ⟨_, hes, by simpa using hd⟩

namespace Batch

variable {f : Frame} {tokens : List String} {answer : String → Except Fault Reading} {rs rs' : List Record}
  {vs vs' : List Verdict} {r r' : Record} {d : Diagnostic}

/-- What counts of a record: its path in normal form, its line counted from zero, and its message. -/
def Frame.place (f : Frame) (r : Record) : String × Nat × String := (f.resolve r.path, r.line - 1, r.message)

theorem Frame.judge_of_place (h : f.place r = f.place r') :
    f.judge tokens answer answer r = f.judge tokens answer answer r' := by
  obtain ⟨hpath, h⟩ := Prod.mk.inj h
  obtain ⟨hline, hmessage⟩ := Prod.mk.inj h
  have horigin : f.origin r = f.origin r' := by rw [origin, origin, hpath]
  exact judge_congr rfl horigin hline hmessage (fun _ _ => rfl) fun _ _ => rfl

theorem mem_kept (h : rs.mapM (f.judge tokens answer answer) = .ok vs) :
    d ∈ kept f.workspace vs ↔ (∃ v ∈ vs, d ∈ v.diagnostic?) ∧ Path.isWithin d.file f.workspace = true := by
  have hplaced : ∀ e, e ∈ inside f.workspace vs ↔
      (∃ v ∈ vs, e ∈ v.diagnostic?) ∧ Path.isWithin e.file f.workspace = true := by
    intro e
    rw [inside, List.mem_filter, placed, List.mem_filterMap]
    rfl
  rw [← hplaced]
  constructor
  · exact fun hd => (firsts_sublist _ _).subset hd
  · intro hd
    -- what is kept in place of `d` has its key, and verdicts with one key are the same diagnostic
    obtain ⟨e, he, hkey⟩ := List.mem_map.mp ((mem_map_firsts Diagnostic.key _ _).mpr (List.mem_map_of_mem hd))
    obtain ⟨⟨v, hv, hdv⟩, -⟩ := (hplaced d).mp hd
    obtain ⟨⟨u, hu, heu⟩, -⟩ := (hplaced e).mp ((firsts_sublist _ _).subset he)
    obtain ⟨r, -, hjudge⟩ := (mem_of_mapM_eq_ok h).mp hv
    obtain ⟨r', -, hjudge'⟩ := (mem_of_mapM_eq_ok h).mp hu
    exact Frame.eq_of_key hjudge' hjudge heu hdv hkey ▸ he

theorem report_sameSet (h : rs.mapM (f.judge tokens answer answer) = .ok vs)
    (h' : rs'.mapM (f.judge tokens answer answer) = .ok vs') (hmem : ∀ v, v ∈ vs ↔ v ∈ vs') :
    (report f.workspace vs).1.SameSet (report f.workspace vs').1 := by
  intro file d
  rw [report, report, Groups.told_in_ofList, Groups.told_in_ofList, mem_kept h, mem_kept h']
  simp only [hmem]

/-- Records that say the same, in any order and any number, come to the same sets. -/
theorem independent_matched {frame : Except Fault Frame} {records records' : Except Fault (List Record)}
    (h : ∀ f, frame = .ok f →
      Matched (fun rs rs' => ∀ p, p ∈ rs.map f.place ↔ p ∈ rs'.map f.place) records records') :
    Matched (fun x x' => x.1.SameSet x'.1) (independent tokens answer frame records)
      (independent tokens answer frame records') := by
  refine Matched.bind (R := Eq) (.refl fun _ _ => rfl) ?_
  rintro f _ hf - rfl
  refine (h f hf).bind fun rs rs' _ _ hplaces => ?_
  have hjudge : ∀ {rs rs' : List Record}, (∀ p, p ∈ rs.map f.place → p ∈ rs'.map f.place) → ∀ r ∈ rs,
      ∃ r' ∈ rs', f.judge tokens answer answer r' = f.judge tokens answer answer r := by
    intro rs rs' hsub r hr
    obtain ⟨r', hr', hplace⟩ := List.mem_map.mp (hsub _ (List.mem_map_of_mem hr))
    exact ⟨r', hr', Frame.judge_of_place hplace⟩
  refine (mapM_matched (hjudge fun p => (hplaces p).mp) (hjudge fun p => (hplaces p).mpr)).bind ?_
  exact fun vs vs' hvs hvs' hmem => .ok (report_sameSet hvs hvs' hmem)

end Batch

/-! ## Lines of output -/

theorem Record.parsed_matched {noise : List Noise} {output output' : String}
    (h : ∀ line, line ∈ Text.splitOn '\n' output.toList ↔ line ∈ Text.splitOn '\n' output'.toList) :
    Matched (fun rs rs' => ∀ r, r ∈ rs ↔ r ∈ rs') (parsed output noise) (parsed output' noise) := by
  refine Matched.bind (R := Eq) (.refl fun _ _ => rfl) ?_
  rintro searches _ - - rfl
  by_cases hall : ∀ line ∈ Text.splitOn '\n' output.toList, Readable searches line
  · have hall' : ∀ line ∈ Text.splitOn '\n' output'.toList, Readable searches line :=
      fun line hline => hall line ((h line).mpr hline)
    rw [collect_of_readable hall, collect_of_readable hall']
    refine .ok fun r => ?_
    simp only [List.mem_filterMap, h]
  · have hall' : ¬ ∀ line ∈ Text.splitOn '\n' output'.toList, Readable searches line :=
      fun hall' => hall fun line hline => hall' line ((h line).mp hline)
    obtain ⟨e, he⟩ := collect_of_not_readable hall
    obtain ⟨e', he'⟩ := collect_of_not_readable hall'
    rw [he, he']
    exact .error

namespace Session

variable {σ : Type} {session session' : Session} {cwd : String} {machine : Machine (StateM σ)}
  {read : Reader (StateM σ)}
  {answer : String → Reading} {q : Batch.Request} {w : σ}

theorem run_matched {output output' : String} (hs : session.settings = session'.settings)
    (ht : session.cache.tokens = session'.cache.tokens)
    (hread : ∀ w', machine.Reached read w w' → ∀ path, ((read path).run w').1 = .ok (answer path))
    (h : ∀ f, (((Batch.frame session.settings cwd machine q).run.run #[]).run w).1.1 = .ok f →
      Matched (fun rs rs' => ∀ p, p ∈ rs.map f.place ↔ p ∈ rs'.map f.place)
        (Record.parsed output session.settings.noisePatterns)
        (Record.parsed output' session.settings.noisePatterns)) :
    Matched Groups.SameSet ((session.run cwd machine read { q with output := output }).run w).1.result
      ((session'.run cwd machine read { q with output := output' }).run w).1.result := by
  have hanswers : read.Answers (machine.Reached read w) fun path a => a = .ok (answer path) :=
    ⟨fun path w' h => hread w' h path, fun path w' h => h.reader path⟩
  have hrun := session.run_eq_independent cwd machine read { q with output := output } w
    (Machine.Reached.keeps machine read w) hanswers .start
  have hrun' := session'.run_eq_independent cwd machine read { q with output := output' } w
    (Machine.Reached.keeps machine read w) hanswers .start
  rw [← hs, ← ht] at hrun'
  exact Matched.of_map hrun hrun' (Batch.independent_matched h) fun _ _ hsame => hsame

/-- Two outputs whose records have the same places, or that consist of the same lines, lead to the same sets of
diagnostics, and to a fault both or neither. -/
theorem run_same_places (session session' : Session) (cwd : String) (machine : Machine (StateM σ))
    (read : Reader (StateM σ)) (answer : String → Reading) (q : Batch.Request) (w : σ)
    (hs : session.settings = session'.settings) (ht : session.cache.tokens = session'.cache.tokens)
    (hread : ∀ w', machine.Reached read w w' → ∀ path, ((read path).run w').1 = .ok (answer path)) :
    let run := fun (session : Session) output =>
      ((session.run cwd machine read { q with output := output }).run w).1.result
    (∀ output output' f rs rs',
      (((Batch.frame session.settings cwd machine q).run.run #[]).run w).1.1 = .ok f →
      Record.parsed output session.settings.noisePatterns = .ok rs →
      Record.parsed output' session.settings.noisePatterns = .ok rs' →
      (∀ place, place ∈ rs.map f.place ↔ place ∈ rs'.map f.place) →
      Matched Groups.SameSet (run session output) (run session' output')) ∧
    ∀ output output',
      (∀ line, line ∈ Text.splitOn '\n' output.toList ↔ line ∈ Text.splitOn '\n' output'.toList) →
      Matched Groups.SameSet (run session output) (run session' output') := by
  intro run
  constructor
  · intro output output' f rs rs' hf hrs hrs' hplaces
    refine run_matched hs ht hread fun f' hf' => ?_
    -- the frame is looked for in the same way whatever the output is
    obtain rfl := Except.ok.inj (hf.symm.trans hf')
    rw [hrs, hrs']
    exact .ok hplaces
  · intro output output' hlines
    refine run_matched hs ht hread fun f _ => (Record.parsed_matched hlines).mono fun rs rs' hmem p => ?_
    simp only [List.mem_map, hmem]

/-- Three records in place of two: in another order, one of them twice, with other paths to the same files, without a
column, and with a line before the first. -/
theorem run_same_places_respelled :
    let run := fun output => ((plain.run "/w" Machine.bare (Reader.fixed fun _ => .silent)
      { Batch.Request.explicit "" "/w" "/w" none with output := output }).run ()).1.result
    let a : Diagnostic := { file := "/w/a.go", line := 2, message := "m" }
    let b : Diagnostic := { file := "/w/b.go", line := 0, message := "n" }
    run "a.go:3:7: m\nb.go:1: n" = .ok [("/w/a.go", [a]), ("/w/b.go", [b])] ∧
      run "./b.go:1: n\nx/../a.go:3: m\nb.go:0: n" = .ok [("/w/b.go", [b]), ("/w/a.go", [a])] ∧
      Groups.SameSet [("/w/a.go", [a]), ("/w/b.go", [b])] [("/w/b.go", [b]), ("/w/a.go", [a])] := by
  intro run a b
  have hrecords : Record.parsed "a.go:3:7: m\nb.go:1: n" plain.settings.noisePatterns =
      .ok [⟨"a.go", 3, some 7, "m"⟩, ⟨"b.go", 1, none, "n"⟩] := by rfl
  have hrecords' : Record.parsed "./b.go:1: n\nx/../a.go:3: m\nb.go:0: n" plain.settings.noisePatterns =
      .ok [⟨"./b.go", 1, none, "n"⟩, ⟨"x/../a.go", 3, none, "m"⟩, ⟨"b.go", 0, none, "n"⟩] := by rfl
  let f := Batch.Frame.explicit plain.settings "/w" "/w" "/w" none
  have hverdicts : List.mapM (f.judge plain.cache.tokens (fun _ => .ok .silent) fun _ => .ok .silent)
      [⟨"a.go", 3, some 7, "m"⟩, ⟨"b.go", 1, none, "n"⟩] = .ok [.placed .fallback a, .placed .fallback b] := by
    dsimp only [f, a, b]
    rfl
  have hverdicts' : List.mapM (f.judge plain.cache.tokens (fun _ => .ok .silent) fun _ => .ok .silent)
      [⟨"./b.go", 1, none, "n"⟩, ⟨"x/../a.go", 3, none, "m"⟩, ⟨"b.go", 0, none, "n"⟩] =
      .ok [.placed .fallback b, .placed .fallback a, .placed .fallback b] := by
    dsimp only [f, a, b]
    rfl
  have hreport : (Batch.report (Path.normalize "/w" "/w") [.placed .fallback a, .placed .fallback b]).1 =
      [("/w/a.go", [a]), ("/w/b.go", [b])] := by dsimp only [a, b]; rfl
  have hreport' : (Batch.report (Path.normalize "/w" "/w")
      [.placed .fallback b, .placed .fallback a, .placed .fallback b]).1 = [("/w/b.go", [b]), ("/w/a.go", [a])] := by
    dsimp only [a, b]
    rfl
  have hplaces : List.map f.place [⟨"a.go", 3, some 7, "m"⟩, ⟨"b.go", 1, none, "n"⟩] =
      [("/w/a.go", 2, "m"), ("/w/b.go", 0, "n")] := by dsimp only [f]; rfl
  have hplaces' : List.map f.place [⟨"./b.go", 1, none, "n"⟩, ⟨"x/../a.go", 3, none, "m"⟩, ⟨"b.go", 0, none, "n"⟩] =
      [("/w/b.go", 0, "n"), ("/w/a.go", 2, "m"), ("/w/b.go", 0, "n")] := by dsimp only [f]; rfl
  have hrun := (run_fixed () hrecords hverdicts).trans (congrArg Except.ok hreport)
  have hrun' := (run_fixed () hrecords' hverdicts').trans (congrArg Except.ok hreport')
  have hboth := (run_same_places plain plain "/w" Machine.bare (Reader.fixed fun _ => .silent) (fun _ => .silent)
    (.explicit "" "/w" "/w" none) () rfl rfl fun _ _ _ => rfl).1
  have hmatched := hboth "a.go:3:7: m\nb.go:1: n" "./b.go:1: n\nx/../a.go:3: m\nb.go:0: n" f _ _
    (Batch.frame_explicit Machine.bare #[] ()) hrecords hrecords' (by simp [hplaces, hplaces', or_comm])
  dsimp only [run, Batch.Request.explicit] at hrun hrun' hmatched ⊢
  exact ⟨hrun, hrun', hmatched.of_ok hrun hrun'⟩

end Session

end Backmap
