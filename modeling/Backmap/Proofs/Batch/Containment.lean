import Backmap.Proofs.Batch.Readers
import Backmap.Proofs.Substitution

/-!
# Which files a batch tells of

All paths that a batch compares with its workspace are in normal form, and so is the workspace. So a file is told of
if it lies below the root of the workspace, and a file elsewhere is not; but a root with two slashes in front holds
nothing.
-/

namespace Backmap

variable {σ α β : Type}

/-! ## What tasks end with -/

namespace Task

/-- If the task ends with a value, it is one in `P`. -/
def Ensures (P : α → Prop) (t : Task (StateM σ) α) : Prop :=
  ∀ log w, t.Ends log w fun x _ => ∀ a, x = .ok a → P a

variable {P : α → Prop} {Q : β → Prop}

theorem ensures_true (t : Task (StateM σ) α) : Ensures (fun _ => True) t := fun _ _ _ _ => trivial

theorem ensures_pure {a : α} (h : P a) : Ensures P (pure a : Task (StateM σ) α) := by
  rintro log w b ⟨⟩
  exact h

theorem ensures_throw (e : Fault) : Ensures P (throw e : Task (StateM σ) α) := by
  rintro log w b ⟨⟩

theorem ensures_mk {x : Except Fault α} (h : ∀ a, x = .ok a → P a) :
    Ensures P (ExceptT.mk (pure x) : Task (StateM σ) α) :=
  fun _ _ => h

theorem Ensures.logged {level : Log.Level} {channel text : String} {t : Task (StateM σ) α} (h : Ensures P t) :
    Ensures P (do Task.log level channel text; t) := fun _ w => h _ w

theorem Ensures.attempt {t : Task (StateM σ) α} (h : Ensures P t) :
    Ensures (fun x => ∀ a, x = .ok a → P a) t.attempt := by
  intro log w
  refine ends_attempt.mpr ((h log w).mono ?_)
  rintro x w' hx _ ⟨⟩
  exact hx

theorem Ensures.bind {t : Task (StateM σ) β} {k : β → Task (StateM σ) α} (ht : Ensures Q t)
    (hk : ∀ b, Q b → Ensures P (k b)) : Ensures P (t >>= k) := by
  refine fun log w => (ht log w).bind (fun b log' w' hb => hk b (hb b rfl) log' w') ?_
  rintro e w' - a ⟨⟩

end Task

/-! ## Tables -/

open Backmap.Task

/-- A table that is made from entries, as seen from `cwd`. -/
def Substitution.Made (cwd : String) (t : Substitution) : Prop := ∃ entries, t = .ofEntries cwd entries

namespace Overlay

variable {machine : Machine (StateM σ)} {cwd : String}

theorem made_of_table {dialect : Json.Dialect} {text name : String} {t : Substitution}
    (h : table dialect cwd text name = .ok t) : t.Made cwd := by
  unfold table at h
  split at h
  · cases h
  · cases h
  · cases h
  · split at h
    · split at h
      · next entries _ => exact ⟨entries, (Except.ok.inj h).symm⟩
      · cases h
    · cases h
  · cases h

theorem loadStrict_made (machine : Machine (StateM σ)) (cwd root : String) (s : Settings) :
    Ensures (·.Made cwd) (loadStrict machine cwd root s) := by
  refine (ensures_true _).bind fun p _ => (ensures_true _).bind fun reading _ => ?_
  cases reading.text? with
  | none => exact ensures_throw _
  | some text => exact ensures_mk fun t => made_of_table

theorem load_made (machine : Machine (StateM σ)) (cwd root : String) (s : Settings) :
    Ensures (fun table => ∀ t ∈ table, t.Made cwd) (load machine cwd root s) := by
  refine (ensures_true _).bind fun p _ => (ensures_true _).bind fun b _ => ?_
  cases b with
  | false => exact (ensures_pure (by simp)).logged
  | true =>
      refine (loadStrict_made machine cwd root s).attempt.bind fun x hx => ?_
      cases x with
      | ok table =>
          refine (ensures_pure ?_).logged
          rintro t ⟨⟩
          exact hx table rfl
      | error e =>
          cases e with
          | overlay name reason => exact (ensures_pure (by simp)).logged
          | _ => exact ensures_throw _

end Overlay

namespace Batch

variable {machine : Machine (StateM σ)} {s : Settings} {cwd base : String} {q : Request}

/-- A table that the request gives is made from entries. -/
def Request.Made (cwd : String) (q : Request) : Prop := ∀ t, q.table = .given (some t) → t.Made cwd

theorem findTable_made (hq : q.Made cwd) :
    Ensures (fun table => ∀ t ∈ table, t.Made cwd) (findTable s cwd machine q base) := by
  unfold findTable
  cases hgiven : q.table with
  | load => exact Overlay.load_made machine cwd base s
  | given table =>
      refine ensures_pure ?_
      rintro t ⟨⟩
      exact hq t hgiven

theorem frame_made (hq : q.Made cwd) :
    Ensures (fun f => ∃ base table, f = .of s cwd q base table ∧ ∀ t ∈ table, t.Made cwd)
    (frame s cwd machine q) := by
  intro log w
  refine frame_ends (B := fun _ _ => True) trivial (fun base log' w' _ => ?_) ?_
  · refine (findTable_made hq log' w').mono ?_
    rintro x w'' hx f hf
    obtain ⟨table, rfl, rfl⟩ := map_eq_ok.mp hf
    exact ⟨base, table, rfl, hx table rfl⟩
  · rintro e w' - f ⟨⟩

theorem Frame.resolve_of_origin {f : Frame} {r : Record} {path : String} (h : f.origin r = .source path) :
    path = f.resolve r.path := by
  unfold origin at h
  dsimp only at h
  split at h
  · cases h
  · split at h
    · exact (Origin.source.inj h).symm
    · cases h

theorem normal_of_file? {table : Option Substitution} (hcwd : Path.isAbsolute cwd.toList = true)
    (htable : ∀ t ∈ table, t.Made cwd) {r : Record} {file : String}
    (h : (Frame.of s cwd q base table).file? r = some file) : Path.Normal file := by
  unfold Frame.file? at h
  cases ho : (Frame.of s cwd q base table).origin r with
  | foreign path => simp [ho] at h
  | source path =>
      obtain rfl : path = file := by simpa [ho] using h
      rw [Frame.resolve_of_origin ho]
      exact Path.normal_normalize hcwd _
  | shadow path source =>
      obtain rfl : source = file := by simpa [ho] using h
      have hpair := Substitution.mem_of_sourceOf?_reverse (Frame.sourceOf?_of_origin ho)
      cases table with
      | none => cases hpair
      | some t =>
          obtain ⟨entries, rfl⟩ := htable t rfl
          exact Substitution.normal_of_mem_sources hcwd (List.mem_map_of_mem hpair)

theorem files_placed {A : String → Except Fault Reading → Prop} {f : Frame} {tokens : List String} {rs : List Record}
    {vs : List Verdict} (h : List.Forall₂ (fun r v => Judged A f tokens r (.ok v)) rs vs) :
    (placed vs).map (·.file) = rs.filterMap f.file? := by
  induction h with
  | nil => rfl
  | @cons r v rs vs hv hvs ih =>
      have hfile := congrArg (Option.map Prod.fst) (file_of_judged hv)
      cases v with
      | unattributed =>
          have hnone : f.file? r = none := by simpa using hfile.symm
          rw [List.filterMap_cons_none hnone, ← ih]
          rfl
      | placed move d =>
          have hsome : f.file? r = some d.file := by simpa [Function.comp_def, eq_comm] using hfile
          rw [List.filterMap_cons_some hsome, ← ih]
          rfl

theorem mem_files_report {workspace : String} {vs : List Verdict} {file : String} :
    file ∈ (report workspace vs).1.map (·.1) ↔
      file ∈ (placed vs).map (·.file) ∧ Path.isWithin file workspace = true := by
  have hfirsts := mem_map_firsts id ((inside workspace vs).map (·.file)) file
  rw [List.map_id, List.map_id] at hfirsts
  rw [files_report, hfirsts, inside, List.mem_map, List.mem_map]
  constructor
  · rintro ⟨d, hd, rfl⟩
    obtain ⟨hplaced, hwithin⟩ := List.mem_filter.mp hd
    exact ⟨⟨d, hplaced, rfl⟩, hwithin⟩
  · rintro ⟨⟨d, hplaced, rfl⟩, hwithin⟩
    exact ⟨d, List.mem_filter.mpr ⟨hplaced, hwithin⟩, rfl⟩

end Batch

/-- Containment goes by the components of normal forms, and by the slashes in front of the root. So the files that a
batch tells of are those of its records that lie below the root of the workspace, if that begins with one slash, and
none if it begins with two. -/
theorem Session.run_files_below (cwd : String) (hcwd : Path.isAbsolute cwd.toList = true) :
    (∀ path root, Path.isWithin (Path.normalize cwd path) (Path.normalize cwd root) = true ↔
      Path.components (Path.normalize cwd root).toList <+: Path.components (Path.normalize cwd path).toList ∧
        Path.rootSlashes (Path.normalize cwd root).toList = ['/']) ∧
    ∀ (session : Session) (machine : Machine (StateM σ)) (read : Reader (StateM σ)) (q : Batch.Request) (w : σ)
      (g : Groups),
      q.Made cwd → ((session.run cwd machine read q).run w).1.result = .ok g →
      let workspace := Path.normalize cwd q.root
      ∃ f rs, (((Batch.frame session.settings cwd machine q).run.run #[]).run w).1.1 = .ok f ∧
        Record.parsed q.output session.settings.noisePatterns = .ok rs ∧
        ∀ file, file ∈ g.map (·.1) ↔ Path.rootSlashes workspace.toList = ['/'] ∧
          (∃ r ∈ rs, f.file? r = some file) ∧ Path.components workspace.toList <+: Path.components file.toList := by
  refine ⟨fun path root => ?_, fun session machine read q w g hq hg => ?_⟩
  · exact (Path.normal_normalize hcwd path).isWithin_iff (Path.normal_normalize hcwd root)
  · have hspec := session.run_spec_any cwd machine read q w
    rw [hg] at hspec
    obtain ⟨f, rs, vs, hf, hrs, hvs, hreport⟩ := hspec
    obtain ⟨base, table, rfl, htable⟩ := Batch.frame_made hq #[] w f hf
    obtain rfl : g = (Batch.report (Path.normalize cwd q.root) vs).1 := congrArg Prod.fst hreport
    refine ⟨_, rs, hf, hrs, fun file => ?_⟩
    rw [Batch.mem_files_report, Batch.files_placed hvs, List.mem_filterMap]
    constructor
    · rintro ⟨⟨r, hr, hfile⟩, hwithin⟩
      have hnormal := Batch.normal_of_file? hcwd htable hfile
      obtain ⟨hbelow, hslash⟩ := (hnormal.isWithin_iff (Path.normal_normalize hcwd q.root)).mp hwithin
      exact ⟨hslash, ⟨r, hr, hfile⟩, hbelow⟩
    · rintro ⟨hslash, ⟨r, hr, hfile⟩, hbelow⟩
      have hnormal := Batch.normal_of_file? hcwd htable hfile
      exact ⟨⟨r, hr, hfile⟩, (hnormal.isWithin_iff (Path.normal_normalize hcwd q.root)).mpr ⟨hbelow, hslash⟩⟩

/-- The root is written with a detour, and the source in it is known by its shadow. A folder whose name only begins with
that of the root is not below it. -/
theorem Session.run_files_below_shadow :
    let q := Batch.Request.explicit "c/x.go:3: oops\n../wx/b.go:1: m" "/..//w/." "/w"
      (some (.ofEntries "/w" [("a.go", "c/x.go")]))
    let d : Diagnostic := { file := "/w/a.go", line := 2, message := "oops" }
    Path.isAbsolute "/w".toList = true ∧ q.Made "/w" ∧
      ((plain.run "/w" Machine.bare (Reader.fixed fun _ => .silent) q).run ()).1.result = .ok [("/w/a.go", [d])] ∧
      ∃ (f : Batch.Frame) (rs : List Record), Record.parsed q.output plain.settings.noisePatterns = .ok rs ∧
        ∀ file, file ∈ ["/w/a.go"] ↔ Path.rootSlashes "/w".toList = ['/'] ∧
          (∃ r ∈ rs, f.file? r = some file) ∧ Path.components "/w".toList <+: Path.components file.toList := by
  intro q d
  have hroot : Path.normalize "/w" q.root = "/w" := by decide
  have hmade : q.Made "/w" := by
    rintro t ⟨⟩
    exact ⟨_, rfl⟩
  have hrecords : Record.parsed q.output plain.settings.noisePatterns =
      .ok [⟨"c/x.go", 3, none, "oops"⟩, ⟨"../wx/b.go", 1, none, "m"⟩] := by
    dsimp only [q]
    rfl
  have hverdicts : List.mapM ((Batch.Frame.explicit plain.settings "/w" "/..//w/." "/w"
          (some (.ofEntries "/w" [("a.go", "c/x.go")]))).judge plain.cache.tokens
        (fun _ => .ok .silent) fun _ => .ok .silent)
      [⟨"c/x.go", 3, none, "oops"⟩, ⟨"../wx/b.go", 1, none, "m"⟩] =
      .ok [.placed .fallback d, .placed .fallback { file := "/wx/b.go", line := 0, message := "m" }] := by
    dsimp only [d]
    rfl
  have hreport : (Batch.report (Path.normalize "/w" "/..//w/.") [.placed .fallback d,
      .placed .fallback { file := "/wx/b.go", line := 0, message := "m" }]).1 = [("/w/a.go", [d])] := by
    dsimp only [d]
    rfl
  have hrun := (run_fixed () hrecords hverdicts).trans (congrArg Except.ok hreport)
  obtain ⟨f, rs, -, hrs, hfiles⟩ := (run_files_below "/w" rfl).2 plain Machine.bare _ q () _ hmade hrun
  rw [hroot] at hfiles
  exact ⟨rfl, hmade, hrun, f, rs, hrs, hfiles⟩

/-- What begins with two slashes is not found below a root that does. -/
theorem Path.isWithin_two_slashes :
    let path := normalize "/tmp/ws" "//tmp/ws/a.go"
    let root := normalize "/tmp/ws" "//tmp/ws"
    ¬ (isWithin path root = true ↔ components root.toList <+: components path.toList) := by
  decide

end Backmap
