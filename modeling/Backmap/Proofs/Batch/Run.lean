import Backmap.Proofs.Batch.Frame
import Backmap.Proofs.Batch.Steps
import Backmap.Proofs.Record

/-!
# Whole batches

A batch finds its frame, reads the records of the output and takes them one by one. When it ends with groups,
these and its counts are the report on one verdict for each record; when it ends with a fault, one of the three
parts did.
-/

namespace Backmap

variable {σ : Type} {I : σ → Prop} {A : String → Except Fault Reading → Prop} {read : Reader (StateM σ)}
  {machine : Machine (StateM σ)} {w : σ}

namespace Batch

open BatchM

/-- What can come of a batch whose frame is `frame`, whose output is read as `records`, and whose reader gives
answers in `A`. -/
def Outcome (A : String → Except Fault Reading → Prop) (tokens : List String) (frame : Except Fault Frame)
    (records : Except Fault (List Record)) : Except Fault Groups → Counts → Prop
  | .ok g, c => ∃ f rs vs, frame = .ok f ∧ records = .ok rs ∧
      List.Forall₂ (fun r v => Judged A f tokens r (.ok v)) rs vs ∧ (g, c) = report f.workspace vs
  | .error e, _ => frame = .error e ∨ ∃ f, frame = .ok f ∧
      (records = .error e ∨ ∃ done r rest vs, records = .ok (done ++ r :: rest) ∧
        List.Forall₂ (fun r v => Judged A f tokens r (.ok v)) done vs ∧ Judged A f tokens r (.error e))

theorem run_ends (hmachine : machine.Keeps I) (hread : read.Answers I A) (hw : I w) (s : Settings) (cwd : String)
    (q : Request) (b : Batch) (log : Log) :
    (run s cwd machine read q).Ends b log w fun x b' w' =>
      I w' ∧ Outcome A b.cache.tokens (((frame s cwd machine q).run.run log).run w).1.1
        (Record.parsed q.output s.noisePatterns) x b'.counts := by
  have hframe : (frame s cwd machine q).Ends log w fun x w' =>
      x = (((frame s cwd machine q).run.run log).run w).1.1 ∧ I w' := ⟨rfl, frame_keeps hmachine s cwd q log w hw⟩
  generalize (((frame s cwd machine q).run.run log).run w).1.1 = framed at hframe ⊢
  refine ends_modify_bind (ends_task_bind hframe ?_ ?_)
  · rintro f log w ⟨rfl, hw⟩
    refine ends_task_bind Record.parse_ends ?_ ?_
    · rintro rs log w' ⟨hrs, rfl⟩
      rw [← hrs]
      refine ends_count_bind (Ends.bind (takeAll_ends hread hw ⟨rfl, .clear _, ?_⟩ rs) ?_ ?_)
      · intro path found h
        cases h
      · rintro _ b' log w' ⟨hw', vs, hvs, hs⟩
        rw [hvs.length_eq, foldl_enter] at hs
        exact ends_get_bind (ends_log_bind fun log => ends_pure.mpr ⟨hw', f, rs, vs, rfl, rfl, hvs, hs⟩)
      · rintro e b' w' ⟨hw', done, r, rest, vs, rfl, hvs, he⟩
        exact ⟨hw', .inr ⟨f, rfl, .inr ⟨done, r, rest, vs, rfl, hvs, he⟩⟩⟩
    · rintro e w' ⟨he, rfl⟩
      exact ⟨hw, .inr ⟨f, rfl, .inl he.symm⟩⟩
  · rintro e w' ⟨rfl, hw'⟩
    exact ⟨hw', .inl rfl⟩

end Batch

/-- The outcome of a batch in a session is that of a batch from nothing. -/
theorem Session.run_spec (session : Session) (cwd : String) (q : Batch.Request) (hmachine : machine.Keeps I)
    (hread : read.Answers I A) (hw : I w) :
    Batch.Outcome A session.cache.tokens
      (((Batch.frame session.settings cwd machine q).run.run #[]).run w).1.1
      (Record.parsed q.output session.settings.noisePatterns)
      ((session.run cwd machine read q).run w).1.result
      ((session.run cwd machine read q).run w).1.session.counts :=
  (Batch.run_ends hmachine hread hw session.settings cwd q { cache := session.cache, counts := session.counts } #[]).2

theorem Session.run_keeps (session : Session) (cwd : String) (q : Batch.Request) (hmachine : machine.Keeps I)
    (hw : I w) :
    I ((session.run cwd machine machine.read q).run w).2 :=
  have hread : Reader.Answers machine.read I fun _ _ => True := ⟨fun _ _ _ => trivial, hmachine.read⟩
  (Batch.run_ends hmachine hread hw session.settings cwd q { cache := session.cache, counts := session.counts } #[]).1

/-- Of a reader that may answer anything, the same. -/
theorem Session.run_spec_any (session : Session) (cwd : String) (machine : Machine (StateM σ))
    (read : Reader (StateM σ)) (q : Batch.Request) (w : σ) :
    Batch.Outcome (fun _ _ => True) session.cache.tokens
      (((Batch.frame session.settings cwd machine q).run.run #[]).run w).1.1
      (Record.parsed q.output session.settings.noisePatterns)
      ((session.run cwd machine read q).run w).1.result
      ((session.run cwd machine read q).run w).1.session.counts :=
  session.run_spec (I := fun _ => True) cwd q ⟨fun _ _ _ => trivial, fun _ _ _ => trivial, fun _ _ _ => trivial⟩
    ⟨fun _ _ _ => trivial, fun _ _ _ => trivial⟩ trivial

end Backmap
