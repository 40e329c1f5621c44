import Backmap.Proofs.Batch.Frame

/-!
# Looking for the overlay document

On a machine that stays as it is, the search for a module and the loading of its table come to functions of what the
machine answers. Next to each function stands the condition under which no fault ends the search.
-/

namespace Backmap

variable {σ α β : Type}

/-! ## Tasks that change nothing -/

/-- The task leaves the state as it is. Under the condition `C` it ends with `v`, and otherwise with a fault. -/
def Task.Yields (task : Task (StateM σ) α) (w : σ) (C : Prop) (v : α) : Prop :=
  ∀ log, task.Ends log w fun x w' => w' = w ∧ (C → x = .ok v) ∧ (¬ C → ∃ e, x = .error e)

namespace Task

variable {task : Task (StateM σ) β} {k : β → Task (StateM σ) α} {w : σ} {C D : Prop} {a : α} {b : β}

theorem yields_pure : Yields (pure a : Task (StateM σ) α) w True a := fun _ =>
  ⟨rfl, fun _ => rfl, fun h => absurd trivial h⟩

theorem yields_throw {e : Fault} : Yields (throw e : Task (StateM σ) α) w False a := fun _ =>
  ⟨rfl, fun h => h.elim, fun _ => ⟨e, rfl⟩⟩

theorem Yields.congr (h : task.Yields w C b) (hC : C ↔ D) : task.Yields w D b :=
  propext hC ▸ h

theorem Yields.logged {level : Log.Level} {channel text : String} (h : task.Yields w C b) :
    Yields (do Task.log level channel text; task) w C b := fun _ => h _

theorem Yields.bind (ht : task.Yields w C b) (hk : C → (k b).Yields w D a) : (task >>= k).Yields w (C ∧ D) a := by
  intro log
  by_cases hC : C
  · refine (ht log).bind ?_ ?_
    · rintro b' log' _ ⟨rfl, hb, -⟩
      cases hb hC
      simpa only [hC, true_and] using hk hC log'
    · rintro e _ ⟨rfl, hb, -⟩
      cases hb hC
  · refine (ht log).bind ?_ ?_
    · rintro b' log' _ ⟨rfl, -, he⟩
      obtain ⟨e, he⟩ := he hC
      cases he
    · rintro e _ ⟨rfl, -, -⟩
      exact ⟨rfl, fun h => absurd h.1 hC, fun _ => ⟨e, rfl⟩⟩

theorem yields_attempt_bind {r : Except Fault β} {k : Except Fault β → Task (StateM σ) α}
    (ht : ∀ log, task.Ends log w fun x w' => x = r ∧ w' = w) (hk : (k r).Yields w C a) :
    (task.attempt >>= k).Yields w C a := by
  intro log
  refine Ends.bind (R := fun x w' => x = .ok r ∧ w' = w) (ends_attempt.mpr ?_) ?_ ?_
  · exact (ht log).mono fun x w' h => ⟨congrArg _ h.1, h.2⟩
  · rintro _ log' _ ⟨hx, rfl⟩
    cases hx
    exact hk log'
  · rintro e _ ⟨hx, -⟩
    cases hx

end Task

/-! ## Answers that do not change -/

/-- What a machine answers as long as nothing changes. -/
structure Snapshot where
  read : String → Except Fault Reading
  isFile : String → Except Fault Bool
  folders : String → Except Fault (List String)
  json : Json.Dialect

/-- A machine that always answers the same. -/
def Snapshot.machine (t : Snapshot) : Machine (StateM σ) where
  read path := pure (t.read path)
  isFile path := pure (t.isFile path)
  folders path := pure (t.folders path)
  json := t.json

/-- What a machine answers in a state. -/
def Machine.snapshot (machine : Machine (StateM σ)) (w : σ) : Snapshot where
  read path := ((machine.read path).run w).1
  isFile path := ((machine.isFile path).run w).1
  folders path := ((machine.folders path).run w).1
  json := machine.json

theorem Snapshot.machine_keeps (t : Snapshot) (I : σ → Prop) : t.machine.Keeps I :=
  ⟨fun _ _ h => h, fun _ _ h => h, fun _ _ h => h⟩

/-! ## Modules -/

namespace Snapshot

/-- Whether a folder holds a file with this name, as far as that can be told. -/
def holds (t : Snapshot) (name : String) (folder : Path.Tidy) : Bool :=
  (t.isFile (folder.join name).text).toOption.getD false

/-- The folders in a folder by their names, if they can be listed. -/
def children (t : Snapshot) (root : Path.Tidy) : List Path.Tidy :=
  (((t.folders root.text).toOption.getD []).mergeSort (· ≤ ·)).map root.join

/-- Where a module is looked for: in a folder itself, then in the folders in it. -/
def candidates (t : Snapshot) (root : Path.Tidy) : List Path.Tidy := root :: t.children root

def module? (t : Snapshot) (marker : String) (root : Path.Tidy) : Option Path.Tidy :=
  (t.candidates root).find? (t.holds marker)

/-- A path can be handed to the system to be read, which may refuse it. -/
def Opens (t : Snapshot) (path : String) : Prop := ∃ reading, t.read path = .ok reading

/-- It can be told of a path whether it is a file. -/
def Told (t : Snapshot) (path : String) : Prop := ∃ b, t.isFile path = .ok b

/-- Up to the first folder that holds the marker, it can be told of each whether it does. -/
def Probed (t : Snapshot) (marker : String) (folders : List Path.Tidy) : Prop :=
  ∀ before folder after, folders = before ++ folder :: after → (∀ f ∈ before, t.holds marker f = false) →
    t.Told (folder.join marker).text

/-- A module can be looked for in a folder: where the folder has to be listed, that can be done or is refused by the
system, and it can be told of the folders that are tried whether they hold the marker. -/
structure Searchable (t : Snapshot) (marker : String) (root : Path.Tidy) : Prop where
  listed : t.holds marker root = false → ∀ f, t.folders root.text = .error f → ∃ e, f = .os e
  probed : t.Probed marker (t.candidates root)

variable {t : Snapshot} {machine : Machine (StateM σ)} {w : σ} {marker : String} {root folder : Path.Tidy}
  {folders : List Path.Tidy}

theorem children_of_ok {names : List String} (h : t.folders root.text = .ok names) :
    t.children root = (names.mergeSort (· ≤ ·)).map root.join := by
  rw [children, h]
  rfl

theorem children_of_error {e : Fault} (h : t.folders root.text = .error e) : t.children root = [] := by
  rw [children, h]
  exact List.map_eq_nil_iff.mpr (List.mergeSort_nil)

theorem probed_nil (t : Snapshot) : t.Probed marker [] := by
  intro before folder after h
  simp at h

theorem probed_cons : t.Probed marker (folder :: folders) ↔
    t.Told (folder.join marker).text ∧ (t.holds marker folder = false → t.Probed marker folders) := by
  constructor
  · intro h
    refine ⟨h [] folder folders rfl fun f hf => absurd hf List.not_mem_nil, fun hf before next after heq hb => ?_⟩
    exact h (folder :: before) next after (by rw [heq]; rfl) (List.forall_mem_cons.mpr ⟨hf, hb⟩)
  · rintro ⟨hfirst, hrest⟩ before next after heq hb
    cases before with
    | nil =>
        cases heq
        exact hfirst
    | cons first before =>
        obtain ⟨rfl, hrest'⟩ := List.cons.inj heq
        obtain ⟨hf, hb⟩ := List.forall_mem_cons.mp hb
        exact hrest hf before next after hrest' hb

theorem searchable_iff : t.Searchable marker root ↔
    (t.holds marker root = false → ∀ f, t.folders root.text = .error f → ∃ e, f = .os e) ∧
      t.Probed marker (t.candidates root) :=
  ⟨fun h => ⟨h.listed, h.probed⟩, fun h => ⟨h.1, h.2⟩⟩

theorem module?_of_holds (h : t.holds marker root = true) : t.module? marker root = some root :=
  List.find?_cons_of_pos h

theorem told_of_holds (h : t.holds marker folder = true) : t.Told (folder.join marker).text := by
  unfold holds at h
  cases hi : t.isFile (folder.join marker).text with
  | ok b => exact ⟨b, hi⟩
  | error e =>
      rw [hi] at h
      cases h

theorem searchable_of_holds (h : t.holds marker root = true) : t.Searchable marker root := by
  refine ⟨fun hf => ?_, probed_cons.mpr ⟨told_of_holds h, fun hf => ?_⟩⟩
  · rw [h] at hf
    cases hf
  · rw [h] at hf
    cases hf

end Snapshot

/-! ## On a machine that stays as it is -/

section Still

open Backmap.Task

variable {machine : Machine (StateM σ)} {w : σ} {marker : String}

namespace Machine.Keeps

theorem isFile_yields (h : machine.Keeps (· = w)) (path : String) :
    Yields (Task.lift (machine.isFile path)) w ((machine.snapshot w).Told path)
      (((machine.snapshot w).isFile path).toOption.getD false) := by
  refine fun log => ends_lift.mpr ⟨h.isFile path w rfl, ?_, fun hnot => ?_⟩
  · rintro ⟨b, hb⟩
    exact hb.trans (by rw [hb]; rfl)
  · cases hi : ((machine.isFile path).run w).1 with
    | ok b => exact absurd ⟨b, hi⟩ hnot
    | error e => exact ⟨e, rfl⟩

theorem holds_yields (h : machine.Keeps (· = w)) (marker : String) (folder : Path.Tidy) :
    Yields (Task.lift (machine.isFile (folder.join marker).text)) w
      ((machine.snapshot w).Told (folder.join marker).text) ((machine.snapshot w).holds marker folder) :=
  h.isFile_yields _

theorem folders_ends (h : machine.Keeps (· = w)) (path : String) (log : Log) :
    (Task.lift (machine.folders path)).Ends log w fun x w' => x = (machine.snapshot w).folders path ∧ w' = w :=
  ⟨rfl, h.folders path w rfl⟩

end Machine.Keeps

namespace Overlay

open Snapshot

theorem firstHolding_yields (h : machine.Keeps (· = w)) (folders : List Path.Tidy) :
    Yields (firstHolding machine marker folders) w ((machine.snapshot w).Probed marker folders)
      (folders.find? ((machine.snapshot w).holds marker)) := by
  induction folders with
  | nil => exact yields_pure.congr ⟨fun _ => probed_nil _, fun _ => trivial⟩
  | cons folder rest ih =>
      have hfile := h.holds_yields marker folder
      rw [firstHolding]
      cases hh : (machine.snapshot w).holds marker folder with
      | true =>
          rw [List.find?_cons_of_pos hh]
          rw [hh] at hfile
          refine Yields.congr (hfile.bind (D := True) fun _ => ?_) ?_
          · exact yields_pure
          · simp [probed_cons, hh]
      | false =>
          rw [List.find?_cons_of_neg (by simp [hh])]
          rw [hh] at hfile
          refine Yields.congr (hfile.bind (D := (machine.snapshot w).Probed marker rest) fun _ => ?_) ?_
          · exact ih
          · simp [probed_cons, hh]

theorem findModule_yields (h : machine.Keeps (· = w)) (root : String) :
    Yields (findModule machine root marker) w ((machine.snapshot w).Searchable marker (.ofString root))
      ((machine.snapshot w).module? marker (.ofString root)) := by
  rw [findModule]
  generalize Path.Tidy.ofString root = root
  have hfile := h.holds_yields marker root
  rw [module?, candidates]
  cases hh : (machine.snapshot w).holds marker root with
  | true =>
      rw [List.find?_cons_of_pos hh]
      rw [hh] at hfile
      refine Yields.congr (hfile.bind (D := True) fun _ => ?_) ?_
      · exact yields_pure
      · rw [searchable_iff, candidates, probed_cons]
        simp [hh]
  | false =>
      rw [List.find?_cons_of_neg (by simp [hh])]
      rw [hh] at hfile
      refine Yields.congr (hfile.bind (D := (∀ f, (machine.snapshot w).folders root.text = .error f → ∃ e, f = .os e) ∧
        (machine.snapshot w).Probed marker ((machine.snapshot w).children root))
        fun _ => yields_attempt_bind (h.folders_ends root.text) ?_) ?_
      · cases hf : (machine.snapshot w).folders root.text with
        | ok names =>
            rw [children_of_ok hf]
            exact (firstHolding_yields h _).congr (iff_and_self.mpr fun _ => nofun)
        | error f =>
            rw [children_of_error hf]
            by_cases hos : ∃ e, f = .os e
            · obtain ⟨e, rfl⟩ := hos
              refine yields_pure.logged.congr ⟨fun _ => ⟨?_, probed_nil _⟩, fun _ => trivial⟩
              rintro _ ⟨⟩
              exact ⟨e, rfl⟩
            · cases f with
              | os e => exact absurd ⟨e, rfl⟩ hos
              | _ => exact yields_throw.congr ⟨False.elim, fun hlisted => hos (hlisted.1 _ rfl)⟩
      · rw [searchable_iff, candidates, probed_cons]
        simp only [hh, forall_const]
        exact and_left_comm

/-- Where the document of the module in `root` is to be. -/
def pathIn (t : Snapshot) (s : Settings) (root : String) : Path.Tidy :=
  (((t.module? s.moduleMarker (.ofString root)).getD (.ofString root)).join s.cacheDir).join s.overlayFile

theorem path_yields (h : machine.Keeps (· = w)) (root : String) (s : Settings) :
    Yields (path machine root s) w ((machine.snapshot w).Searchable s.moduleMarker (.ofString root))
      (pathIn (machine.snapshot w) s root) := by
  refine Yields.congr ((findModule_yields h root).bind (D := True) fun _ => ?_) (Iff.of_eq (and_true _))
  exact yields_pure

/-- The text is JSON or is no JSON, but no number in it is too long and nothing in it lies too deep. -/
structure Legible (dialect : Json.Dialect) (text : String) : Prop where
  number : ∀ e, Json.read dialect text ≠ .error (.number e)
  depth : ∀ container, Json.read dialect text ≠ .error (.tooDeep container)

/-- A fault that tolerant loading passes over. -/
def Tolerable (f : Fault) : Prop := ∃ name reason, f = .overlay name reason

/-- What strict loading makes of the reading of the document at a place. -/
def ofReading (dialect : Json.Dialect) (cwd : String) (place : Path.Tidy) :
    Except Fault Reading → Except Fault Substitution
  | .error f => .error f
  | .ok reading =>
    match reading.text? with
    | none => .error (.overlay place.text s!"cannot read: {reading.reason}")
    | some text => table dialect cwd text place.text

/-- The table of the module in a folder, if its document is a file that holds one which can be used. -/
def tableIn (t : Snapshot) (s : Settings) (cwd root : String) : Option Substitution :=
  match t.isFile (pathIn t s root).text with
  | .ok true => (ofReading t.json cwd (pathIn t s root) (t.read (pathIn t s root).text)).toOption
  | _ => none

/-- A table can be looked for in the module in a folder. -/
structure Loadable (t : Snapshot) (s : Settings) (root : String) : Prop where
  module : t.Searchable s.moduleMarker (.ofString root)
  path : t.Told (pathIn t s root).text
  reading : t.isFile (pathIn t s root).text = .ok true → ∀ f, t.read (pathIn t s root).text = .error f → Tolerable f
  text : t.isFile (pathIn t s root).text = .ok true →
    ∀ text, t.read (pathIn t s root).text = .ok (.text text) → Legible t.json text

theorem table_of_legible {dialect : Json.Dialect} {cwd text name : String} {e : Fault} (h : Legible dialect text)
    (he : table dialect cwd text name = .error e) : ∃ reason, e = .overlay name reason := by
  unfold table at he
  split at he
  · next hr => exact absurd hr (h.number _)
  · next hr => exact absurd hr (h.depth _)
  · exact ⟨_, (Except.error.inj he).symm⟩
  · split at he
    · split at he
      · cases he
      · exact ⟨_, (Except.error.inj he).symm⟩
    · exact ⟨_, (Except.error.inj he).symm⟩
  · exact ⟨_, (Except.error.inj he).symm⟩

theorem table_of_not_legible {dialect : Json.Dialect} {cwd text name : String} (h : ¬ Legible dialect text) :
    (∃ e, table dialect cwd text name = .error (.numeral e)) ∨
      ∃ c, table dialect cwd text name = .error (.tooDeep c) := by
  unfold table
  cases hr : Json.read dialect text with
  | ok value => exact absurd ⟨by simp [hr], by simp [hr]⟩ h
  | error e =>
      cases e with
      | number e => exact .inl ⟨e, rfl⟩
      | tooDeep c => exact .inr ⟨c, rfl⟩
      | malformed => exact absurd ⟨by simp [hr], by simp [hr]⟩ h

theorem ofReading_ends (h : machine.Keeps (· = w)) (cwd : String) (place : Path.Tidy) (log : Log) :
    (do
      let reading ← Task.lift (machine.read place.text)
      match reading.text? with
      | none => throw (.overlay place.text s!"cannot read: {reading.reason}")
      | some text => ExceptT.mk (pure (table machine.json cwd text place.text)) :
        Task (StateM σ) Substitution).Ends log w fun x w' =>
      x = ofReading machine.json cwd place ((machine.snapshot w).read place.text) ∧ w' = w := by
  have hkept := h.read place.text w rfl
  refine ends_lift_bind (fun reading log' hr => ?_) fun e he => ?_
  · have hsame : (machine.snapshot w).read place.text = .ok reading := hr
    rw [hsame, ofReading, hkept]
    cases reading.text? with
    | none => exact ends_throw.mpr ⟨rfl, rfl⟩
    | some text => exact ends_mk.mpr ⟨rfl, rfl⟩
  · have hsame : (machine.snapshot w).read place.text = .error e := he
    rw [hsame]
    exact ⟨rfl, hkept⟩

theorem loadStrict_ends (h : machine.Keeps (· = w)) {cwd root : String} {s : Settings} {log : Log}
    (hs : (machine.snapshot w).Searchable s.moduleMarker (.ofString root)) :
    (loadStrict machine cwd root s).Ends log w fun x w' =>
      x = ofReading machine.json cwd (pathIn (machine.snapshot w) s root)
        ((machine.snapshot w).read (pathIn (machine.snapshot w) s root).text) ∧ w' = w := by
  refine (path_yields h root s log).bind ?_ ?_
  · rintro p log' _ ⟨rfl, hp, -⟩
    cases hp hs
    exact ofReading_ends h cwd _ log'
  · rintro e _ ⟨rfl, hp, -⟩
    cases hp hs


/-- Strict loading ends with a fault that matters where the document cannot be opened at all, or asks too much. -/
theorem tolerable_iff {dialect : Json.Dialect} {cwd : String} {place : Path.Tidy} {r : Except Fault Reading} :
    (∀ f, ofReading dialect cwd place r = .error f → Tolerable f) ↔
      (∀ f, r = .error f → Tolerable f) ∧ ∀ text, r = .ok (.text text) → Legible dialect text := by
  cases r with
  | error f => simp [ofReading]
  | ok reading =>
      cases reading with
      | refused error => simp [ofReading, Reading.text?, Tolerable]
      | silent => simp [ofReading, Reading.text?, Tolerable]
      | text text =>
          have hread : ofReading dialect cwd place (.ok (.text text)) = table dialect cwd text place.text := rfl
          rw [hread]
          constructor
          · refine fun h => ⟨nofun, ?_⟩
            rintro _ ⟨⟩
            refine Classical.byContradiction fun hnot => ?_
            rcases table_of_not_legible hnot with ⟨e, he⟩ | ⟨c, hc⟩
            · obtain ⟨_, _, hf⟩ := h _ he
              cases hf
            · obtain ⟨_, _, hf⟩ := h _ hc
              cases hf
          · intro h f hf
            obtain ⟨reason, rfl⟩ := table_of_legible (h.2 text rfl) hf
            exact ⟨_, reason, rfl⟩

theorem load_yields (h : machine.Keeps (· = w)) (cwd root : String) (s : Settings) :
    Yields (load machine cwd root s) w (Loadable (machine.snapshot w) s root)
      (tableIn (machine.snapshot w) s cwd root) := by
  refine Yields.congr ((path_yields h root s).bind fun hs => (h.isFile_yields _).bind
    (D := (machine.snapshot w).isFile (pathIn (machine.snapshot w) s root).text = .ok true →
      ∀ f, ofReading machine.json cwd (pathIn (machine.snapshot w) s root)
        ((machine.snapshot w).read (pathIn (machine.snapshot w) s root).text) = .error f → Tolerable f)
    fun ⟨b, hb⟩ => ?_) ?_
  · rw [tableIn, hb]
    cases b with
    | false => exact yields_pure.logged.congr ⟨fun _ => nofun, fun _ => trivial⟩
    | true =>
        refine yields_attempt_bind (fun log => loadStrict_ends h hs) ?_
        have hjson : (machine.snapshot w).json = machine.json := rfl
        rw [hjson]
        cases ofReading machine.json cwd (pathIn (machine.snapshot w) s root)
          ((machine.snapshot w).read (pathIn (machine.snapshot w) s root).text) with
        | ok table => exact yields_pure.logged.congr ⟨fun _ _ => nofun, fun _ => trivial⟩
        | error f =>
            cases f with
            | overlay name reason =>
                refine yields_pure.logged.congr ⟨fun _ _ => ?_, fun _ => trivial⟩
                rintro _ ⟨⟩
                exact ⟨name, reason, rfl⟩
            | _ =>
                refine yields_throw.congr ⟨False.elim, fun hall => ?_⟩
                obtain ⟨_, _, hf⟩ := hall rfl _ rfl
                cases hf
  · simp only [tolerable_iff]
    exact ⟨fun ⟨hs, htold, hread⟩ => ⟨hs, htold, fun hi => (hread hi).1, fun hi => (hread hi).2⟩,
      fun hl => ⟨hl.module, hl.path, fun hi => ⟨hl.reading hi, hl.text hi⟩⟩⟩

end Overlay

end Still

end Backmap
