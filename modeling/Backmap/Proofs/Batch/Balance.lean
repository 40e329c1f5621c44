import Backmap.Proofs.Batch.Fresh
import Backmap.Proofs.Path

/-!
# What every report has in common

Whatever the files hold and however the reader behaves, the groups of a batch are in order, all that they tell lies
in the workspace, and the counts account for every record.
-/

namespace Backmap

namespace Batch

variable {workspace : String} {vs : List Verdict}

theorem length_eq_placed (vs : List Verdict) :
    vs.length = (placed vs).length + vs.countP (·.diagnostic?.isNone) := by
  induction vs with
  | nil => rfl
  | cons v vs ih =>
      cases v with
      | unattributed =>
          have hv : placed (.unattributed :: vs) = placed vs := rfl
          rw [List.length_cons, hv, List.countP_cons_of_pos rfl]
          omega
      | placed move d =>
          have hv : placed (.placed move d :: vs) = d :: placed vs := rfl
          rw [List.length_cons, hv, List.length_cons, List.countP_cons_of_neg (by simp)]
          omega

theorem length_placed (workspace : String) (vs : List Verdict) :
    (placed vs).length =
      (inside workspace vs).length + (placed vs).countP (!Path.isWithin ·.file workspace) := by
  rw [inside, ← List.countP_eq_length_filter]
  simpa using List.length_eq_countP_add_countP (fun d : Diagnostic => Path.isWithin d.file workspace)

/-- Every record is resolved, or dropped for one of three reasons. -/
theorem tally_parsed (workspace : String) (vs : List Verdict) :
    (tally workspace vs).parsed = (tally workspace vs).resolved + (tally workspace vs).duplicates +
      (tally workspace vs).unattributed + (tally workspace vs).outside := by
  have h₁ := length_eq_placed vs
  have h₂ := length_placed workspace vs
  have h₃ := length_kept_le workspace vs
  simp only [tally]
  omega

/-- A record is snapped, falls back or is attributed to nothing, and no two of these. -/
theorem tally_moves (workspace : String) (vs : List Verdict) :
    (tally workspace vs).snapped + (tally workspace vs).fallbacks + (tally workspace vs).unattributed ≤
      (tally workspace vs).parsed := by
  simp only [tally]
  induction vs with
  | nil => exact Nat.le_refl 0
  | cons v vs ih =>
      simp only [List.countP_cons, List.length_cons]
      cases v with
      | unattributed =>
          simp only [Verdict.move_unattributed, Verdict.diagnostic?_unattributed, reduceCtorEq, decide_false,
            Option.isNone_none, Bool.false_eq_true, if_false, if_true]
          omega
      | placed move d =>
          cases move <;> simp <;> omega

theorem kept_eq_firsts (workspace : String) (vs : List Verdict) :
    kept workspace vs = firsts Diagnostic.key
      (((vs.map Verdict.diagnostic?).filterMap id).filter (Path.isWithin ·.file workspace)) := by
  rw [kept, inside, placed, List.filterMap_map]
  rfl

theorem placed_of_mem_kept {d : Diagnostic} (h : d ∈ kept workspace vs) :
    d ∈ placed vs ∧ Path.isWithin d.file workspace = true :=
  List.mem_filter.mp ((firsts_sublist _ _).subset h)

theorem line_nonneg_of_judged {A : String → Except Fault Reading → Prop} {f : Frame} {tokens : List String}
    {rs : List Record} (h : List.Forall₂ (fun r v => Judged A f tokens r (.ok v)) rs vs) :
    ∀ d ∈ placed vs, 0 ≤ d.line := by
  induction h with
  | nil =>
      intro d hd
      cases hd
  | @cons r v rs vs hv hvs ih =>
      intro d hd
      obtain ⟨v', hv', hd'⟩ := List.mem_filterMap.mp hd
      rcases List.mem_cons.mp hv' with rfl | hv'
      · obtain ⟨shadows, sources, -, -, hj⟩ := hv
        exact Frame.line_nonneg_of_judge hj d hd'
      · exact ih d (List.mem_filterMap.mpr ⟨v', hv', hd'⟩)

theorem file_of_judged {A : String → Except Fault Reading → Prop} {f : Frame} {tokens : List String}
    {r : Record} {v : Verdict} (h : Judged A f tokens r (.ok v)) :
    v.diagnostic?.map (fun d => (d.file, d.message)) = (f.file? r).map (·, r.message) := by
  obtain ⟨shadows, sources, -, -, hj⟩ := h
  exact Frame.file_of_judge hj

end Batch

/-- A batch that ends with groups tells, of the diagnostics that its records came to one after the other, the first
of each kind in the workspace, by files and in their order; and its counts add up. -/
theorem Session.run_orderly {σ : Type} (session : Session) (cwd : String) (machine : Machine (StateM σ))
    (read : Reader (StateM σ)) (q : Batch.Request) (w : σ) (g : Groups)
    (h : ((session.run cwd machine read q).run w).1.result = .ok g) :
    let c := ((session.run cwd machine read q).run w).1.session.counts
    let workspace := Path.normalize cwd q.root
    ((∀ file ds, (file, ds) ∈ g → ds ≠ [] ∧ ∀ d ∈ ds, d.file = file) ∧
      (g.map (·.1)).Nodup ∧ (g.diagnostics.map Diagnostic.key).Nodup ∧
      ∃ f rs found,
        (((Batch.frame session.settings cwd machine q).run.run #[]).run w).1.1 = .ok f ∧
        Record.parsed q.output session.settings.noisePatterns = .ok rs ∧
        List.Forall₂ (fun r (d : Option Diagnostic) =>
          d.map (fun d => (d.file, d.message)) = (f.file? r).map (·, r.message)) rs found ∧
        let kept := firsts Diagnostic.key ((found.filterMap id).filter (Path.isWithin ·.file workspace))
        g.map (·.1) = firsts id (kept.map (·.file)) ∧
          ∀ file ds, (file, ds) ∈ g → ds = kept.filter (·.file = file)) ∧
    (∀ d ∈ g.diagnostics,
      Path.components workspace.toList <+: Path.components d.file.toList ∧ 0 ≤ d.line) ∧
    (c.parsed = c.resolved + c.duplicates + c.unattributed + c.outside ∧
      c.resolved = g.diagnostics.length ∧ c.snapped + c.fallbacks ≤ c.parsed - c.unattributed) := by
  intro c workspace
  have hspec := session.run_spec_any cwd machine read q w
  rw [h] at hspec
  obtain ⟨f, rs, vs, hf, hrs, hvs, hs⟩ := hspec
  obtain ⟨base, table, rfl⟩ := Batch.frame_of machine session.settings cwd q #[] w f hf
  obtain ⟨rfl, hc⟩ := Prod.mk.inj hs
  have hc : c = Batch.tally workspace vs := hc
  have hperm := Groups.diagnostics_ofList (Batch.kept workspace vs)
  refine ⟨⟨?_, Groups.nodup_files, ?_, _, rs, vs.map Batch.Verdict.diagnostic?, hf, hrs, ?_, ?_, ?_⟩, ?_, ?_, ?_, ?_⟩
  · intro file ds hg
    obtain ⟨rfl, hne⟩ := Groups.mem_ofList hg
    exact ⟨hne, fun d hd => by simpa using (List.mem_filter.mp hd).2⟩
  · exact (hperm.map Diagnostic.key).nodup_iff.mpr (nodup_map_firsts _ _)
  · rw [List.forall₂_map_right_iff]
    exact hvs.imp fun r v hv => Batch.file_of_judged hv
  · rw [← Batch.kept_eq_firsts]
    exact Groups.files_ofList _
  · intro file ds hg
    rw [← Batch.kept_eq_firsts]
    exact (Groups.mem_ofList hg).1
  · intro d hd
    obtain ⟨hplaced, hwithin⟩ := Batch.placed_of_mem_kept (Groups.mem_diagnostics.mp hd)
    exact ⟨Path.components_prefix_of_isWithin hwithin, Batch.line_nonneg_of_judged hvs d hplaced⟩
  · rw [hc, Batch.tally_parsed]
  · rw [hc]
    exact hperm.length_eq.symm
  · have hmoves := Batch.tally_moves workspace vs
    rw [hc]
    omega

def Session.plain : Session := { settings := { noisePatterns := [] }, cache := { tokens := ["@inco:", "@if:"] } }

theorem Record.parsed_repeated : Record.parsed "a.go:3: oops\n./a.go:2: oops" Session.plain.settings.noisePatterns =
    .ok [⟨"a.go", 3, none, "oops"⟩, ⟨"./a.go", 2, none, "oops"⟩] := by rfl

theorem Batch.judged_repeated (shadows : String → Except Fault Reading) :
    let d : Diagnostic := { file := "/w/a.go", line := 1, message := "oops" }
    List.mapM ((Frame.explicit Session.plain.settings "/w" "/w" "/w" none).judge Session.plain.cache.tokens shadows
        fun _ => .ok (.text "x\n// @inco: y\nz\n"))
      [⟨"a.go", 3, none, "oops"⟩, ⟨"./a.go", 2, none, "oops"⟩] = .ok [.placed .snapped d, .placed .stayed d] := by
  intro d
  have hbuild : AnchorIndex.build "x\n// @inco: y\nz\n" Session.plain.cache.tokens = ⟨[1]⟩ := by rfl
  have horigin : (Frame.explicit Session.plain.settings "/w" "/w" "/w" none).origin ⟨"a.go", 3, none, "oops"⟩ =
      .source "/w/a.go" := by rfl
  have horigin' : (Frame.explicit Session.plain.settings "/w" "/w" "/w" none).origin ⟨"./a.go", 2, none, "oops"⟩ =
      .source "/w/a.go" := by rfl
  exact mapM_eq_ok.mpr (.cons (Frame.judge_singleton horigin rfl hbuild (by decide) (by decide))
    (.cons (Frame.judge_singleton horigin' rfl hbuild (by decide) (by decide)) .nil))

theorem Batch.report_repeated :
    let d : Diagnostic := { file := "/w/a.go", line := 1, message := "oops" }
    (report (Path.normalize "/w" "/w") [.placed .snapped d, .placed .stayed d]).1 = [("/w/a.go", [d])] := by rfl

/-- Of two records the second repeats the first, once that is snapped. -/
theorem Session.run_orderly_repeated :
    let machine := Machine.uniform "x\n// @inco: y\nz\n"
    let session : Session := { settings := { noisePatterns := [] }, cache := { tokens := ["@inco:", "@if:"] } }
    let q : Batch.Request :=
      { output := "a.go:3: oops\n./a.go:2: oops", root := "/w", compileRoot := some "/w", table := .given none }
    let o := ((session.run "/w" machine machine.read q).run ()).1
    let d : Diagnostic := { file := "/w/a.go", line := 1, message := "oops" }
    o.result = .ok [("/w/a.go", [d])] ∧ o.session.counts.resolved = (Groups.diagnostics [("/w/a.go", [d])]).length ∧
      o.session.counts.snapped + o.session.counts.fallbacks ≤
        o.session.counts.parsed - o.session.counts.unattributed := by
  intro machine session q o d
  have hframe : (((Batch.frame session.settings "/w" machine q).run.run #[]).run ()).1.1 =
      .ok (.explicit session.settings "/w" "/w" "/w" none) := Batch.frame_explicit machine #[] ()
  have hrun := (run_of_verdicts (Machine.uniform_keeps _) (Machine.uniform_answers _) trivial hframe
    Record.parsed_repeated (Batch.judged_repeated _)).1.trans (congrArg Except.ok Batch.report_repeated)
  have horderly := run_orderly session "/w" machine machine.read q () _ hrun
  exact ⟨hrun, horderly.2.2.2.1, horderly.2.2.2.2⟩

end Backmap
