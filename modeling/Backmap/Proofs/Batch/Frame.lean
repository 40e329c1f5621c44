import Backmap.Proofs.Ends

/-!
# Finding the frame of a batch

Before a batch takes its records it looks for the module and for the overlay document. The looking leaves the
outside as the operations on files leave it, and what it finds has the settings and the workspace that the
batch was asked for.
-/

namespace Backmap

variable {σ α β : Type} {I : σ → Prop}

/-! ## What tasks leave as it is -/

/-- Started in a state in `I`, the task ends in one, whatever its result. -/
def Task.Keeps (I : σ → Prop) (t : Task (StateM σ) α) : Prop :=
  ∀ log w, I w → t.Ends log w fun _ w' => I w'

/-- No operation on files leaves `I`. -/
structure Machine.Keeps (machine : Machine (StateM σ)) (I : σ → Prop) : Prop where
  read : ∀ path w, I w → I ((machine.read path).run w).2
  isFile : ∀ path w, I w → I ((machine.isFile path).run w).2
  folders : ∀ path w, I w → I ((machine.folders path).run w).2

namespace Task

theorem keeps_pure (a : α) : Keeps I (pure a) := fun _ _ h => h

theorem keeps_throw (e : Fault) : Keeps I (throw e : Task (StateM σ) α) := fun _ _ h => h

theorem keeps_mk (x : Except Fault α) : Keeps I (ExceptT.mk (pure x)) := fun _ _ h => h

theorem Keeps.logged {level : Log.Level} {channel text : String} {t : Task (StateM σ) α} (h : Keeps I t) :
    Keeps I (do Task.log level channel text; t) := fun _ w hw => h _ w hw

theorem keeps_lift {x : StateM σ (Except Fault α)} (h : ∀ w, I w → I (x.run w).2) : Keeps I (Task.lift x) :=
  fun _ w hw => h w hw

theorem Keeps.attempt {t : Task (StateM σ) α} (h : Keeps I t) : Keeps I t.attempt := fun log w hw =>
  ends_attempt.mpr (h log w hw)

theorem Keeps.bind {t : Task (StateM σ) β} {k : β → Task (StateM σ) α} (ht : Keeps I t)
    (hk : ∀ b, Keeps I (k b)) : Keeps I (t >>= k) := fun log w hw =>
  (ht log w hw).bind (fun b log' w' hw' => hk b log' w' hw') fun _ _ hw' => hw'

end Task

namespace Overlay

open Backmap.Task

variable {machine : Machine (StateM σ)}

theorem firstHolding_keeps (hd : machine.Keeps I) (marker : String) (folders : List Path.Tidy) :
    Keeps I (firstHolding machine marker folders) := by
  induction folders with
  | nil => exact keeps_pure none
  | cons folder rest ih =>
      refine (keeps_lift (hd.isFile _)).bind fun b => ?_
      cases b
      · exact ih
      · exact keeps_pure _

theorem findModule_keeps (hd : machine.Keeps I) (root marker : String) :
    Keeps I (findModule machine root marker) := by
  refine (keeps_lift (hd.isFile _)).bind fun b => ?_
  cases b with
  | true => exact keeps_pure _
  | false =>
      refine (keeps_lift (hd.folders _)).attempt.bind fun x => ?_
      cases x with
      | ok names => exact firstHolding_keeps hd _ _
      | error e =>
          cases e with
          | os e => exact (keeps_pure _).logged
          | _ => exact keeps_throw _

theorem path_keeps (hd : machine.Keeps I) (root : String) (s : Settings) : Keeps I (path machine root s) :=
  (findModule_keeps hd _ _).bind fun _ => keeps_pure _

theorem loadStrict_keeps (hd : machine.Keeps I) (cwd root : String) (s : Settings) :
    Keeps I (loadStrict machine cwd root s) := by
  refine (path_keeps hd root s).bind fun p => (keeps_lift (hd.read _)).bind fun reading => ?_
  cases reading.text? with
  | none => exact keeps_throw _
  | some text => exact keeps_mk _

theorem load_keeps (hd : machine.Keeps I) (cwd root : String) (s : Settings) :
    Keeps I (load machine cwd root s) := by
  refine (path_keeps hd root s).bind fun p => (keeps_lift (hd.isFile _)).bind fun b => ?_
  cases b with
  | false => exact (keeps_pure _).logged
  | true =>
      refine (loadStrict_keeps hd cwd root s).attempt.bind fun x => ?_
      cases x with
      | ok table => exact (keeps_pure _).logged
      | error e =>
          cases e with
          | overlay name reason => exact (keeps_pure _).logged
          | _ => exact keeps_throw _

end Overlay

namespace Batch

open Backmap.Task

variable {machine : Machine (StateM σ)}

theorem findBase_keeps (hd : machine.Keeps I) (s : Settings) (cwd : String) (q : Request) :
    Keeps I (findBase s cwd machine q) := by
  unfold findBase
  cases q.compileRoot with
  | some root => exact keeps_pure _
  | none =>
      refine (Overlay.findModule_keeps hd _ _).bind fun folder => ?_
      cases folder with
      | some folder => exact keeps_pure _
      | none => exact keeps_pure _

theorem findTable_keeps (hd : machine.Keeps I) (s : Settings) (cwd : String) (q : Request) (base : String) :
    Keeps I (findTable s cwd machine q base) := by
  unfold findTable
  cases q.table with
  | given table => exact keeps_pure _
  | load => exact Overlay.load_keeps hd _ _ _

theorem tellClashes_bind {clashes : List Substitution.Clash} {k : Unit → Task (StateM σ) α} {log : Log} {w : σ}
    {Q : Except Fault α → σ → Prop} (h : ∀ log', (k ()).Ends log' w Q) :
    (tellClashes clashes >>= k).Ends log w Q := by
  have htell : ∀ log, (tellClashes clashes : Task (StateM σ) Unit).Ends log w fun x w' =>
      x = .ok () ∧ w' = w := by
    induction clashes with
    | nil => exact fun log => ends_pure.mpr ⟨rfl, rfl⟩
    | cons c rest ih => exact fun log => ends_log_bind fun log' => ih log'
  refine (htell log).bind ?_ ?_
  · rintro _ log' _ ⟨-, rfl⟩
    exact h log'
  · rintro e _ ⟨he, -⟩
    cases he

def Frame.of (s : Settings) (cwd : String) (q : Request) (base : String) (table : Option Substitution) : Frame :=
  { settings := s, cwd, base, workspace := Path.normalize cwd q.root, sources := (table.getD {}).reverse.1 }

theorem frame_ends {s : Settings} {cwd : String} {q : Request} {log : Log} {w : σ}
    {B : Except Fault String → σ → Prop} {Q : Except Fault Frame → σ → Prop}
    (hb : (findBase s cwd machine q).Ends log w B)
    (ht : ∀ base log' w', B (.ok base) w' → (findTable s cwd machine q base).Ends log' w' fun x w'' =>
      Q (x.map (Frame.of s cwd q base)) w'')
    (he : ∀ e w', B (.error e) w' → Q (.error e) w') : (frame s cwd machine q).Ends log w Q := by
  refine hb.bind (fun base log' w' hbase => (ht base log' w' hbase).bind (fun table log'' w'' h => ?_) ?_) he
  · refine tellClashes_bind fun log => ?_
    dsimp only
    split
    · exact ends_log_bind fun log => ends_pure.mpr h
    · exact ends_pure.mpr h
  · exact fun e w'' h => h

theorem frame_keeps (hd : machine.Keeps I) (s : Settings) (cwd : String) (q : Request) :
    Keeps I (frame s cwd machine q) := fun log w hw =>
  frame_ends (findBase_keeps hd s cwd q log w hw)
    (fun base log' w' hw' => findTable_keeps hd s cwd q base log' w' hw') fun _ _ hw' => hw'

theorem frame_of (machine : Machine (StateM σ)) (s : Settings) (cwd : String) (q : Request) (log : Log) (w : σ) :
    (frame s cwd machine q).Ends log w fun x _ => ∀ f, x = .ok f → ∃ base table, f = .of s cwd q base table := by
  refine frame_ends (B := fun _ _ => True) trivial (fun base log' w' _ => ?_) ?_
  · rintro f hf
    obtain ⟨table, -, rfl⟩ := map_eq_ok.mp hf
    exact ⟨base, table, rfl⟩
  · rintro e w' - f hf
    cases hf

def Request.explicit (output root base : String) (table : Option Substitution) : Request :=
  { output, root, compileRoot := some base, table := .given table }

/-- What a batch works with whose base and table are given. -/
def Frame.explicit (s : Settings) (cwd root base : String) (table : Option Substitution) : Frame where
  settings := s
  cwd := cwd
  base := Path.normalize cwd base
  workspace := Path.normalize cwd root
  sources := (table.getD {}).reverse.1

theorem frame_explicit (machine : Machine (StateM σ)) {s : Settings} {cwd output root base : String}
    {table : Option Substitution} (log : Log) (w : σ) :
    (frame s cwd machine (.explicit output root base table)).Ends log w fun x _ =>
      x = .ok (.explicit s cwd root base table) := by
  refine frame_ends (B := fun x _ => x = .ok (Path.normalize cwd base)) rfl ?_ ?_
  · rintro base' log' w' ⟨⟩
    exact Task.ends_pure.mpr rfl
  · rintro e w' ⟨⟩

end Batch

end Backmap
