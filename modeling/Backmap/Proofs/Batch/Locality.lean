import Backmap.Proofs.Batch.Completion
import Backmap.Proofs.Record.Noise
import Backmap.Proofs.Workspace

/-!
# Batches and what goes wrong in them

With the default settings a batch completes unless a path cannot be handed to the system, the search for the module or
its overlay document is not answered, a number is too long, or the overlay document is nested too deep. When it does,
what it tells of a file comes from the records that are attributed to the file and from the texts that these were
looked up in, and from nothing else.
-/

namespace Backmap

namespace Batch

/-! ## What is told of a file -/

variable {f f' : Frame} {tokens : List String} {answer : String → Except Fault Reading} {rs : List Record}
  {vs : List Verdict} {file workspace : String}

/-- The records that are attributed to a file come to the diagnostics in it. -/
theorem mapM_filter (h : rs.mapM (f.judge tokens answer answer) = .ok vs) (file : String) :
    ∃ us, (rs.filter (f.file? · = some file)).mapM (f.judge tokens answer answer) = .ok us ∧
      placed us = (placed vs).filter (·.file = file) := by
  simp only [mapM_eq_ok] at h ⊢
  induction h with
  | nil => exact ⟨[], .nil, rfl⟩
  | @cons r v rs vs hv hvs ih =>
      obtain ⟨us, hus, hplaced⟩ := ih
      have hfile : v.diagnostic?.map (·.file) = f.file? r := by
        simpa [Function.comp_def] using congrArg (Option.map Prod.fst) (Frame.file_of_judge hv)
      cases v with
      | unattributed =>
          have hr : f.file? r ≠ some file := by simp [← hfile]
          simp only [List.filter_cons, hr, decide_false, Bool.false_eq_true, if_false]
          exact ⟨us, hus, hplaced⟩
      | placed move d =>
          have hd : placed (.placed move d :: vs) = d :: placed vs := rfl
          have hr : f.file? r = some file ↔ d.file = file := by simp [← hfile]
          simp only [List.filter_cons, hr, hd, decide_eq_true_eq]
          split
          · rw [← hplaced]
            exact ⟨.placed move d :: us, .cons hv hus, rfl⟩
          · exact ⟨us, hus, hplaced⟩

theorem filter_diagnostics_report (workspace : String) (vs : List Verdict) (file : String) :
    (report workspace vs).1.diagnostics.filter (·.file = file) =
      firsts Diagnostic.key (((placed vs).filter (·.file = file)).filter (Path.isWithin ·.file workspace)) := by
  have hkey : ∀ d e : Diagnostic, d.key = e.key → decide (d.file = file) = decide (e.file = file) := by
    intro d e h
    have hfile : d.file = e.file := congrArg Prod.fst h
    rw [hfile]
  rw [report, Groups.filter_diagnostics, kept, filter_firsts _ _ hkey, inside, List.filter_comm]

/-- Of two batches, one where the answers are `t` and one where they are `t'`, the same records are attributed to a
file, and they are looked up in the same texts. -/
structure Alike (t t' : Snapshot) (f f' : Frame) (rs rs' : List Record) (file : String) : Prop where
  workspace : f.workspace = f'.workspace
  records : rs.filter (f.file? · = some file) = rs'.filter (f'.file? · = some file)
  origins : ∀ r ∈ rs, f.file? r = some file → f.origin r = f'.origin r
  texts : ∀ r ∈ rs, f.file? r = some file → ∀ path ∈ f.paths r, t.read path = t'.read path

theorem Alike.diagnostics_eq {t t' : Snapshot} {rs' : List Record} {vs' : List Verdict}
    (h : Alike t t' f f' rs rs' file)
    (hs : f.settings = f'.settings) (hvs : rs.mapM (f.judge tokens t.read t.read) = .ok vs)
    (hvs' : rs'.mapM (f'.judge tokens t'.read t'.read) = .ok vs') :
    (report f.workspace vs).1.diagnostics.filter (·.file = file) =
      (report f'.workspace vs').1.diagnostics.filter (·.file = file) := by
  obtain ⟨us, hus, hplaced⟩ := mapM_filter hvs file
  obtain ⟨us', hus', hplaced'⟩ := mapM_filter hvs' file
  have hjudge : ∀ r ∈ rs.filter (f.file? · = some file),
      f.judge tokens t.read t.read r = f'.judge tokens t'.read t'.read r := by
    intro r hr
    obtain ⟨hr, hfile⟩ := List.mem_filter.mp hr
    have hfile : f.file? r = some file := by simpa using hfile
    exact Frame.judge_congr hs (h.origins r hr hfile) rfl rfl (h.texts r hr hfile) (h.texts r hr hfile)
  have hboth := (List.forall₂_and_left _ _).mpr ⟨hjudge, mapM_eq_ok.mp hus⟩
  have hus : (rs.filter (f.file? · = some file)).mapM (f'.judge tokens t'.read t'.read) = .ok us :=
    mapM_eq_ok.mpr (hboth.imp fun r v hr => hr.1.symm.trans hr.2)
  rw [h.records, hus'] at hus
  rw [filter_diagnostics_report, filter_diagnostics_report, ← hplaced, ← hplaced', Except.ok.inj hus, h.workspace]

theorem exists_diagnostic (h : rs.mapM (f.judge tokens answer answer) = .ok vs) {r : Record} (hr : r ∈ rs)
    (hfile : f.file? r = some file) (hwithin : Path.isWithin file workspace = true) :
    ∃ d ∈ (report workspace vs).1.diagnostics, d.file = file ∧ d.message = r.message := by
  obtain ⟨v, hv, hjudge⟩ := exists_of_mapM_eq_ok h r hr
  obtain ⟨d, hd, he⟩ := Option.map_eq_some_iff.mp ((Frame.file_of_judge hjudge).trans (by rw [hfile]; rfl))
  obtain ⟨rfl, hmessage⟩ := Prod.mk.inj he
  have hinside : d ∈ inside workspace vs :=
    List.mem_filter.mpr ⟨List.mem_filterMap.mpr ⟨v, hv, hd⟩, hwithin⟩
  have hkey : d.key ∈ (kept workspace vs).map Diagnostic.key :=
    (mem_map_firsts _ _ _).mpr (List.mem_map_of_mem hinside)
  obtain ⟨e, he, hk⟩ := List.mem_map.mp hkey
  obtain ⟨hfile', hk⟩ := Prod.mk.inj hk
  exact ⟨e, Groups.mem_diagnostics.mpr he, hfile', (Prod.mk.inj hk).2.trans hmessage⟩

end Batch

/-! ## A small module -/

def Workspace.sample : Workspace :=
  ⟨["w"], [(["w"], .folder), (["w", "go.mod"], .file .empty), (["w", "a.go"], .file .empty)]⟩

def Snapshot.sample : Snapshot := Workspace.sample.snapshot .usual

theorem Snapshot.sample_holds : sample.holds "go.mod" (.ofString (Path.normalize "/w" "/w")) = true := by rfl

namespace Batch

def Request.sample (output : String) : Request := { output, root := "/w" }

theorem Request.output_sample (output : String) : (sample output).output = output := rfl

def Frame.sample : Frame := { settings := {}, cwd := "/w", base := "/w", workspace := "/w", sources := [] }

theorem baseIn_sample (output : String) : baseIn .sample {} "/w" (.sample output) = "/w" := by
  have hfolder : Path.normalize "/w" (Path.Tidy.ofString (Path.normalize "/w" "/w")).text = "/w" := by rfl
  simp only [baseIn, Request.sample, Snapshot.module?_of_holds Snapshot.sample_holds, hfolder]

theorem frameIn_sample (output : String) : frameIn .sample {} "/w" (.sample output) = .sample := by
  have htable : Overlay.tableIn .sample {} "/w" "/w" = none := by rfl
  have hload : tableIn .sample {} "/w" (.sample output) =
      Overlay.tableIn .sample {} "/w" (baseIn .sample {} "/w" (.sample output)) := rfl
  have hframe : Frame.of {} "/w" (.sample "") "/w" none = .sample := by rfl
  rw [frameIn, hload, baseIn_sample, htable]
  exact hframe

theorem framed_sample (output : String) : Framed .sample {} "/w" (.sample output) := by
  have hsearch := Snapshot.searchable_of_holds Snapshot.sample_holds
  have hroot : Path.Tidy.ofString (Path.normalize "/w" "/w") = .ofString "/w" := by rfl
  have hfile : Snapshot.sample.isFile (Overlay.pathIn .sample {} "/w").text = .ok false := by rfl
  refine ⟨fun _ => hsearch, fun _ => ?_⟩
  rw [baseIn_sample]
  refine ⟨hroot ▸ hsearch, ⟨false, hfile⟩, fun h => ?_, fun h => ?_⟩
  · cases hfile.symm.trans h
  · cases hfile.symm.trans h

theorem sound_sample {output : String} (h : ∀ line ∈ Text.splitOn '\n' output.toList, ∃ r path,
    Record.Line.ofText Record.chatter line = .record r ∧ Frame.sample.origin r = .source path ∧
      Snapshot.sample.Opens path) :
    Sound .sample {} Record.chatter "/w" (.sample output) := by
  refine ⟨framed_sample output, ?_, ?_⟩
  · intro line hline
    rw [Request.output_sample] at hline
    obtain ⟨r, path, hr, -, -⟩ := h line hline
    refine Record.readable_iff.mpr fun f hf => ?_
    cases hr.symm.trans hf
  · intro line hline
    rw [Request.output_sample] at hline
    obtain ⟨r, path, hr, ho, hopens⟩ := h line hline
    intro r' hr'
    rw [Record.ofLine?, hr] at hr'
    cases hr'
    rw [frameIn_sample, Frame.Judgeable, ho]
    exact hopens

end Batch

/-! ## Completion -/

namespace Session

/-- A batch with the default settings completes exactly if it is sound. Then nothing is left untold that is attributed
to a file in the workspace, and what is told of a file is the same in any other batch that is alike for it, whatever
becomes of the rest of the output and of the other files. -/
theorem runIn_completes (cache : AnchorCache) (counts : Counts) (cwd : String) :
    let session : Session := ⟨{}, cache, counts⟩
    let records := Batch.recordsIn Record.chatter
    (∀ t q, (∃ g, session.runIn cwd t q = .ok g) ↔ Batch.Sound t {} Record.chatter cwd q) ∧
    (∀ t q g, session.runIn cwd t q = .ok g → ∀ r ∈ records q, ∀ file,
      (Batch.frameIn t {} cwd q).file? r = some file → Path.isWithin file (Path.normalize cwd q.root) = true →
      ∃ d ∈ g.diagnostics, d.file = file ∧ d.message = r.message) ∧
    ∀ t t' q q' g g' file, session.runIn cwd t q = .ok g → session.runIn cwd t' q' = .ok g' →
      Batch.Alike t t' (Batch.frameIn t {} cwd q) (Batch.frameIn t' {} cwd q') (records q) (records q') file →
      g.diagnostics.filter (·.file = file) = g'.diagnostics.filter (·.file = file) := by
  intro session records
  have hp : Record.readPatterns session.settings.noisePatterns = .ok Record.chatter := Record.readPatterns_default
  refine ⟨fun t q => runIn_ok_iff hp, fun t q g hg r hr file hfile hwithin => ?_, ?_⟩
  · obtain ⟨-, -, vs, hvs, rfl⟩ := (runIn_eq_ok hp).mp hg
    exact Batch.exists_diagnostic hvs hr hfile hwithin
  · intro t t' q q' g g' file hg hg' halike
    obtain ⟨-, -, vs, hvs, rfl⟩ := (runIn_eq_ok hp).mp hg
    obtain ⟨-, -, vs', hvs', rfl⟩ := (runIn_eq_ok hp).mp hg'
    exact halike.diagnostics_eq rfl hvs hvs'

/-- A line about a file that is not there changes nothing in what is told of another, and is told itself. -/
theorem runIn_completes_sample :
    let session : Session := ⟨{}, { tokens := ["@inco:", "@if:"] }, {}⟩
    ∃ g g', session.runIn "/w" .sample (.sample "a.go:2: m") = .ok g ∧
      session.runIn "/w" .sample (.sample "a.go:2: m\nb.go:1: n") = .ok g' ∧
      (∃ d ∈ g'.diagnostics, d.file = "/w/b.go" ∧ d.message = "n") ∧
      g.diagnostics.filter (·.file = "/w/a.go") = g'.diagnostics.filter (·.file = "/w/a.go") := by
  have hlines : Text.splitOn '\n' "a.go:2: m".toList = ["a.go:2: m".toList] := by rfl
  have hlines' : Text.splitOn '\n' "a.go:2: m\nb.go:1: n".toList = ["a.go:2: m".toList, "b.go:1: n".toList] := by rfl
  have ha : Record.Line.ofText Record.chatter "a.go:2: m".toList = .record ⟨"a.go", 2, none, "m"⟩ := by cbv
  have hb : Record.Line.ofText Record.chatter "b.go:1: n".toList = .record ⟨"b.go", 1, none, "n"⟩ := by cbv
  have hoa : Batch.Frame.sample.origin ⟨"a.go", 2, none, "m"⟩ = .source "/w/a.go" := by rfl
  have hob : Batch.Frame.sample.origin ⟨"b.go", 1, none, "n"⟩ = .source "/w/b.go" := by rfl
  have hopensa : Snapshot.sample.Opens "/w/a.go" := ⟨_, rfl⟩
  have hopensb : Snapshot.sample.Opens "/w/b.go" := ⟨_, rfl⟩
  have hrecords : Batch.recordsIn Record.chatter (.sample "a.go:2: m") = [⟨"a.go", 2, none, "m"⟩] := by
    rw [Batch.recordsIn, Batch.Request.output_sample, hlines]
    simp only [List.filterMap_cons, List.filterMap_nil, Record.ofLine?, ha]
  have hrecords' : Batch.recordsIn Record.chatter (.sample "a.go:2: m\nb.go:1: n") =
      [⟨"a.go", 2, none, "m"⟩, ⟨"b.go", 1, none, "n"⟩] := by
    rw [Batch.recordsIn, Batch.Request.output_sample, hlines']
    simp only [List.filterMap_cons, List.filterMap_nil, Record.ofLine?, ha, hb]
  obtain ⟨hiff, htold, halike⟩ := runIn_completes { tokens := ["@inco:", "@if:"] } {} "/w"
  obtain ⟨g, hg⟩ := (hiff .sample (.sample "a.go:2: m")).mpr <| Batch.sound_sample <| by
    rw [hlines, List.forall_mem_singleton]
    exact ⟨_, _, ha, hoa, hopensa⟩
  obtain ⟨g', hg'⟩ := (hiff .sample (.sample "a.go:2: m\nb.go:1: n")).mpr <| Batch.sound_sample <| by
    rw [hlines', List.forall_mem_cons, List.forall_mem_singleton]
    exact ⟨⟨_, _, ha, hoa, hopensa⟩, ⟨_, _, hb, hob, hopensb⟩⟩
  refine ⟨g, g', hg, hg', htold _ _ _ hg' ⟨"b.go", 1, none, "n"⟩ ?_ _ ?_ ?_, halike _ _ _ _ _ _ _ hg hg' ?_⟩
  · simp [hrecords']
  · simp [Batch.frameIn_sample, Batch.Frame.file?, hob]
  · have hwithin : Path.isWithin "/w/b.go" (Path.normalize "/w" "/w") = true := by rfl
    exact hwithin
  · rw [Batch.frameIn_sample, Batch.frameIn_sample, hrecords, hrecords']
    refine ⟨rfl, ?_, fun _ _ _ => rfl, fun _ _ _ _ _ => rfl⟩
    simp [Batch.Frame.file?, hoa, hob]

/-- A NUL in the path of one record ends the batch, although another record is in order. -/
theorem runIn_nul_not_ok :
    let session : Session := ⟨{}, { tokens := ["@inco:", "@if:"] }, {}⟩
    ¬ ∃ g, session.runIn "/w" .sample (.sample "a\x00.go:1: m\na.go:1: n") = .ok g := by
  intro session h
  have hp : Record.readPatterns session.settings.noisePatterns = .ok Record.chatter := Record.readPatterns_default
  have hline : Record.ofLine? Record.chatter "a\x00.go:1: m".toList = some ⟨"a\x00.go", 1, none, "m"⟩ := by cbv
  have hlines : Text.splitOn '\n' "a\x00.go:1: m\na.go:1: n".toList =
      ["a\x00.go:1: m".toList, "a.go:1: n".toList] := by rfl
  have horigin : Batch.Frame.sample.origin ⟨"a\x00.go", 1, none, "m"⟩ = .source "/w/a\x00.go" := by rfl
  have hjudgeable := ((runIn_ok_iff hp).mp h).records _ (hlines ▸ List.mem_cons_self) _ hline
  rw [Batch.frameIn_sample, Batch.Frame.Judgeable, horigin] at hjudgeable
  obtain ⟨reading, hreading⟩ := hjudgeable
  have hnul : Workspace.sample.read "/w/a\x00.go" = .error .nulInPath := Workspace.read_of_hasNul (by decide)
  cases hnul.symm.trans hreading

end Session

end Backmap
