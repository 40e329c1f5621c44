import Backmap.Proofs.Batch.Fresh
import Backmap.Proofs.Marker
import Backmap.Proofs.Overlay

/-!
# Batches that complete

On a machine that stays as it is, a batch ends with groups or with a fault. Which of the two is told by a condition on
what the machine answers and on the output.
-/

namespace Backmap

open Backmap.Task

variable {σ : Type} {machine : Machine (StateM σ)} {w : σ}

namespace Batch

/-! ## Frames -/

/-- The folder from which the compiler's paths are read. -/
def baseIn (t : Snapshot) (s : Settings) (cwd : String) (q : Request) : String :=
  match q.compileRoot with
  | some root => Path.normalize cwd root
  | none =>
    match t.module? s.moduleMarker (.ofString (Path.normalize cwd q.root)) with
    | some folder => Path.normalize cwd folder.text
    | none => Path.normalize cwd q.root

def tableIn (t : Snapshot) (s : Settings) (cwd : String) (q : Request) : Option Substitution :=
  match q.table with
  | .given table => table
  | .load => Overlay.tableIn t s cwd (baseIn t s cwd q)

def frameIn (t : Snapshot) (s : Settings) (cwd : String) (q : Request) : Frame :=
  .of s cwd q (baseIn t s cwd q) (tableIn t s cwd q)

/-- The frame of a batch can be found. -/
structure Framed (t : Snapshot) (s : Settings) (cwd : String) (q : Request) : Prop where
  module : q.compileRoot = none → t.Searchable s.moduleMarker (.ofString (Path.normalize cwd q.root))
  overlay : q.table = .load → Overlay.Loadable t s (baseIn t s cwd q)

theorem findBase_yields (h : machine.Keeps (· = w)) (s : Settings) (cwd : String) (q : Request) :
    Yields (findBase s cwd machine q) w
      (q.compileRoot = none →
        (machine.snapshot w).Searchable s.moduleMarker (.ofString (Path.normalize cwd q.root)))
      (baseIn (machine.snapshot w) s cwd q) := by
  unfold findBase baseIn
  cases q.compileRoot with
  | some root => exact yields_pure.congr (by simp)
  | none =>
      refine Yields.congr ((Overlay.findModule_yields h _).bind (D := True) fun _ => ?_) (by simp)
      cases (machine.snapshot w).module? s.moduleMarker (.ofString (Path.normalize cwd q.root)) with
      | some folder => exact yields_pure
      | none => exact yields_pure

theorem findTable_yields (h : machine.Keeps (· = w)) (s : Settings) (cwd : String) (q : Request) :
    Yields (findTable s cwd machine q (baseIn (machine.snapshot w) s cwd q)) w
      (q.table = .load → Overlay.Loadable (machine.snapshot w) s (baseIn (machine.snapshot w) s cwd q))
      (tableIn (machine.snapshot w) s cwd q) := by
  unfold findTable tableIn
  cases q.table with
  | given table => exact yields_pure.congr (by simp)
  | load => exact (Overlay.load_yields h _ _ _).congr (by simp)

theorem frame_yields (h : machine.Keeps (· = w)) (s : Settings) (cwd : String) (q : Request) :
    Yields (frame s cwd machine q) w (Framed (machine.snapshot w) s cwd q)
      (frameIn (machine.snapshot w) s cwd q) := by
  refine Yields.congr ((findBase_yields h s cwd q).bind fun _ =>
    (findTable_yields h s cwd q).bind (D := True) fun _ log => tellClashes_bind fun log => ?_) ?_
  · dsimp only
    split
    · exact yields_pure.logged log
    · exact yields_pure log
  · rw [and_true]
    exact ⟨fun h => ⟨h.1, h.2⟩, fun h => ⟨h.module, h.overlay⟩⟩

/-! ## Records -/

/-- A verdict on a record can be found: every file that is read for it can be handed to the system, and the numbers of
markers can be read. -/
def Frame.Judgeable (f : Frame) (t : Snapshot) (r : Record) : Prop :=
  match f.origin r with
  | .foreign _ => True
  | .source path => t.Opens path
  | .shadow path source =>
    t.Opens path ∧ ∀ text, t.read path = .ok (.text text) →
      (∀ line ∈ Text.lines text.toList, Marker.Readable f.settings.markerToken.toList line) ∧
      ∀ markers, Marker.findAll text f.settings.markerToken = .ok markers →
        (∃ m ∈ markers, m.index ≤ (r.line - 1 : Nat)) → t.Opens source

namespace Frame

variable {f : Frame} {tokens : List String} {t : Snapshot} {r : Record}

theorem map_ok_iff {α : Type} {path : String} {g : Reading → α} :
    (∃ v, (t.read path).map g = .ok v) ↔ t.Opens path := by
  simp only [map_eq_ok]
  constructor
  · rintro ⟨v, reading, h, -⟩
    exact ⟨reading, h⟩
  · rintro ⟨reading, h⟩
    exact ⟨_, reading, h, rfl⟩

theorem judgeShadow_ok_iff {source : String} {line : Int} {markers : List Marker} :
    (∃ v, f.judgeShadow tokens r source line t.read markers = .ok v) ↔
      ((∃ m ∈ markers, m.index ≤ line) → t.Opens source) := by
  rw [← Marker.resolve?_isSome, judgeShadow]
  cases Marker.resolve? markers line with
  | none => simp
  | some moved => simpa only [Option.isSome_some, forall_const] using map_ok_iff

theorem judge_ok_iff : (∃ v, f.judge tokens t.read t.read r = .ok v) ↔ f.Judgeable t r := by
  unfold judge Judgeable
  cases f.origin r with
  | foreign path => exact ⟨fun _ => trivial, fun _ => ⟨_, rfl⟩⟩
  | source path => exact map_ok_iff
  | shadow path source =>
      cases hr : t.read path with
      | error e => simp [Snapshot.Opens, hr, error_bind]
      | ok reading =>
          have hopens : t.Opens path := ⟨reading, hr⟩
          simp only [hr, hopens, ok_bind]
          cases reading with
          | refused error => exact ⟨fun _ => by simp, fun _ => ⟨_, rfl⟩⟩
          | silent => exact ⟨fun _ => by simp, fun _ => ⟨_, rfl⟩⟩
          | text text =>
              simp only [markersIn, Reading.text?, Except.ok.injEq, Reading.text.injEq, forall_eq', true_and]
              rw [← Marker.ofLines_ok_iff 0, ← Marker.findAll]
              cases Marker.findAll text f.settings.markerToken with
              | error e => simp [error_bind]
              | ok markers => simpa [ok_bind] using judgeShadow_ok_iff

end Frame

/-! ## The whole -/

/-- A batch can complete: its frame can be found, the numbers in the output can be read, and there is a verdict on each
record. -/
structure Sound (t : Snapshot) (s : Settings) (searches : List Record.Search) (cwd : String) (q : Request) : Prop
    extends Framed t s cwd q where
  lines : ∀ line ∈ Text.splitOn '\n' q.output.toList, Record.Readable searches line
  records : ∀ line ∈ Text.splitOn '\n' q.output.toList, ∀ r ∈ Record.ofLine? searches line,
    (frameIn t s cwd q).Judgeable t r

/-- The records of the output, each from its line. -/
def recordsIn (searches : List Record.Search) (q : Request) : List Record :=
  (Text.splitOn '\n' q.output.toList).filterMap (Record.ofLine? searches)

theorem frame_eq_ok (h : machine.Keeps (· = w)) {s : Settings} {cwd : String} {q : Request} {f : Frame} :
    (((frame s cwd machine q).run.run #[]).run w).1.1 = .ok f ↔
      Framed (machine.snapshot w) s cwd q ∧ f = frameIn (machine.snapshot w) s cwd q := by
  obtain ⟨-, hok, herror⟩ := frame_yields h s cwd q #[]
  by_cases h : Framed (machine.snapshot w) s cwd q
  · rw [hok h, Except.ok.injEq]
    exact ⟨fun hf => ⟨h, hf.symm⟩, fun hf => hf.2.symm⟩
  · obtain ⟨e, he⟩ := herror h
    rw [he]
    exact ⟨nofun, fun hf => absurd hf.1 h⟩

theorem parsed_eq_ok {q : Request} {noise : List Record.Noise} {searches : List Record.Search} {rs : List Record}
    (hp : Record.readPatterns noise = .ok searches) : Record.parsed q.output noise = .ok rs ↔
      (∀ line ∈ Text.splitOn '\n' q.output.toList, Record.Readable searches line) ∧ rs = recordsIn searches q := by
  rw [Record.parsed, hp, ok_bind]
  by_cases h : ∀ line ∈ Text.splitOn '\n' q.output.toList, Record.Readable searches line
  · rw [Record.collect_of_readable h, Except.ok.injEq]
    exact ⟨fun hrs => ⟨h, hrs.symm⟩, fun hrs => hrs.2.symm⟩
  · obtain ⟨e, he⟩ := Record.collect_of_not_readable h
    rw [he]
    exact ⟨nofun, fun hrs => absurd hrs.1 h⟩

end Batch

theorem Snapshot.machine_answers (t : Snapshot) (I : σ → Prop) :
    Reader.Answers t.machine.read I fun path a => a = t.read path :=
  ⟨fun _ _ _ => rfl, fun _ _ h => h⟩

namespace Session

/-- What a batch comes to on a machine that always answers the same. -/
def runIn (session : Session) (cwd : String) (t : Snapshot) (q : Batch.Request) : Except Fault Groups :=
  ((session.run cwd t.machine t.machine.read q).run ()).1.result

variable {session : Session} {cwd : String} {t : Snapshot} {q : Batch.Request} {searches : List Record.Search}
  {g : Groups}

theorem runIn_eq_ok (hp : Record.readPatterns session.settings.noisePatterns = .ok searches) :
    session.runIn cwd t q = .ok g ↔
      Batch.Framed t session.settings cwd q ∧
      (∀ line ∈ Text.splitOn '\n' q.output.toList, Record.Readable searches line) ∧
      ∃ vs, (Batch.recordsIn searches q).mapM
          ((Batch.frameIn t session.settings cwd q).judge session.cache.tokens t.read t.read) = .ok vs ∧
        g = (Batch.report (Path.normalize cwd q.root) vs).1 := by
  have hkeeps : (t.machine : Machine (StateM Unit)).Keeps (· = ()) := t.machine_keeps _
  have h := session.run_eq_independent cwd t.machine t.machine.read q () hkeeps (t.machine_answers _) rfl
  unfold runIn
  generalize ((session.run cwd t.machine t.machine.read q).run ()).1 = o at h ⊢
  constructor
  · intro hg
    rw [hg] at h
    obtain ⟨f, hf, h'⟩ := bind_eq_ok.mp h.symm
    obtain ⟨rs, hrs, h'⟩ := bind_eq_ok.mp h'
    obtain ⟨vs, hvs, hreport⟩ := bind_eq_ok.mp h'
    obtain ⟨hframed, rfl⟩ := (Batch.frame_eq_ok hkeeps).mp hf
    obtain ⟨hlines, rfl⟩ := (Batch.parsed_eq_ok hp).mp hrs
    refine ⟨hframed, hlines, vs, hvs, ?_⟩
    exact congrArg Prod.fst (Except.ok.inj hreport).symm
  · rintro ⟨hframed, hlines, vs, hvs, rfl⟩
    rw [(Batch.frame_eq_ok hkeeps).mpr ⟨hframed, rfl⟩, (Batch.parsed_eq_ok hp).mpr ⟨hlines, rfl⟩,
      Batch.independent, ok_bind, ok_bind] at h
    rw [show t.machine.snapshot () = t from rfl, hvs, ok_bind] at h
    obtain ⟨g, hg, he⟩ := map_eq_ok.mp h
    exact hg.trans (congrArg Except.ok (congrArg Prod.fst he))

theorem runIn_ok_iff (hp : Record.readPatterns session.settings.noisePatterns = .ok searches) :
    (∃ g, session.runIn cwd t q = .ok g) ↔ Batch.Sound t session.settings searches cwd q := by
  simp only [runIn_eq_ok hp]
  constructor
  · rintro ⟨g, hframed, hlines, vs, hvs, -⟩
    refine ⟨hframed, hlines, fun line hline r hr => ?_⟩
    exact Batch.Frame.judge_ok_iff.mp (exists_mapM_eq_ok.mp ⟨vs, hvs⟩ r (List.mem_filterMap.mpr ⟨line, hline, hr⟩))
  · intro h
    have hjudged : ∀ r ∈ Batch.recordsIn searches q,
        ∃ v, (Batch.frameIn t session.settings cwd q).judge session.cache.tokens t.read t.read r = .ok v := by
      intro r hr
      obtain ⟨line, hline, hr⟩ := List.mem_filterMap.mp hr
      exact Batch.Frame.judge_ok_iff.mpr (h.records line hline r hr)
    obtain ⟨vs, hvs⟩ := exists_mapM_eq_ok.mpr hjudged
    exact ⟨_, h.toFramed, h.lines, vs, hvs, rfl⟩

end Session

end Backmap
