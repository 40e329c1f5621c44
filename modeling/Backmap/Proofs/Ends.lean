import Backmap.Batch

/-!
# How computations end

Computations are run over a state `σ` that stands for everything outside of them. `Ends` says of a start that
the result and what is left behind satisfy a condition. The log is no part of the condition: nothing that a
computation does depends on what it has told.
-/

namespace Backmap

variable {σ α β : Type}

/-! ## Results -/

theorem ok_bind (a : α) (k : α → Except Fault β) : (Except.ok a >>= k) = k a := rfl

theorem error_bind (e : Fault) (k : α → Except Fault β) : (Except.error e >>= k) = .error e := rfl

theorem bind_eq_ok {x : Except Fault α} {k : α → Except Fault β} {b : β} :
    (x >>= k) = .ok b ↔ ∃ a, x = .ok a ∧ k a = .ok b := by
  cases x <;> simp [ok_bind, error_bind]

theorem map_eq_ok {x : Except Fault α} {g : α → β} {b : β} : x.map g = .ok b ↔ ∃ a, x = .ok a ∧ g a = b := by
  cases x <;> simp [Except.map]

theorem map_eq_error {x : Except Fault α} {g : α → β} {e : Fault} : x.map g = .error e ↔ x = .error e := by
  cases x <;> simp [Except.map]

/-! ## Tasks -/

namespace Task

/-- Started in `w`, the task ends with a result and a state that satisfy `Q`. -/
def Ends (t : Task (StateM σ) α) (log : Log) (w : σ) (Q : Except Fault α → σ → Prop) : Prop :=
  Q ((t.run.run log).run w).1.1 ((t.run.run log).run w).2

variable {log : Log} {w : σ} {Q R : Except Fault α → σ → Prop}

theorem Ends.mono {t : Task (StateM σ) α} (h : t.Ends log w R) (hQ : ∀ r w', R r w' → Q r w') :
    t.Ends log w Q := hQ _ _ h

theorem ends_pure {a : α} : (pure a : Task (StateM σ) α).Ends log w Q ↔ Q (.ok a) w := Iff.rfl

theorem ends_throw {e : Fault} : (throw e : Task (StateM σ) α).Ends log w Q ↔ Q (.error e) w := Iff.rfl

theorem ends_lift {x : StateM σ (Except Fault α)} :
    (Task.lift x).Ends log w Q ↔ Q (x.run w).1 (x.run w).2 := Iff.rfl

theorem ends_mk {x : Except Fault α} : Ends (ExceptT.mk (pure x)) log w Q ↔ Q x w := Iff.rfl

theorem ends_attempt {t : Task (StateM σ) α} {Q : Except Fault (Except Fault α) → σ → Prop} :
    t.attempt.Ends log w Q ↔ t.Ends log w fun r w' => Q (.ok r) w' := Iff.rfl

theorem run_bind (t : Task (StateM σ) β) (k : β → Task (StateM σ) α) (log : Log) (w : σ) :
    ((t >>= k).run.run log).run w = match (t.run.run log).run w with
      | ((.ok b, log'), w') => ((k b).run.run log').run w'
      | ((.error e, log'), w') => ((.error e, log'), w') := by
  rcases h : (t.run.run log).run w with ⟨⟨r, log'⟩, w'⟩
  cases r <;> simp only [ExceptT.run_bind, StateT.run_bind, h] <;> rfl

/-- A sequence ends as its second part does, or with the fault of its first. -/
theorem Ends.bind {t : Task (StateM σ) β} {k : β → Task (StateM σ) α} {R : Except Fault β → σ → Prop}
    (ht : t.Ends log w R) (hk : ∀ b log' w', R (.ok b) w' → (k b).Ends log' w' Q)
    (he : ∀ e w', R (.error e) w' → Q (.error e) w') : (t >>= k).Ends log w Q := by
  unfold Ends at ht ⊢
  rw [run_bind]
  rcases h : (t.run.run log).run w with ⟨⟨r, log'⟩, w'⟩
  rw [h] at ht
  cases r with
  | ok b => exact hk b log' w' ht
  | error e => exact he e w' ht

theorem ends_lift_bind {x : StateM σ (Except Fault β)} {k : β → Task (StateM σ) α}
    (hk : ∀ a log', (x.run w).1 = .ok a → (k a).Ends log' (x.run w).2 Q)
    (he : ∀ e, (x.run w).1 = .error e → Q (.error e) (x.run w).2) : (Task.lift x >>= k).Ends log w Q := by
  refine Ends.bind (R := fun r w' => r = (x.run w).1 ∧ w' = (x.run w).2) ⟨rfl, rfl⟩ ?_ ?_
  · rintro a log' _ ⟨ha, rfl⟩
    exact hk a log' ha.symm
  · rintro e _ ⟨ha, rfl⟩
    exact he e ha.symm

theorem ends_log_bind {level : Log.Level} {channel text : String} {k : Unit → Task (StateM σ) α}
    (h : ∀ log', (k ()).Ends log' w Q) : (Task.log level channel text >>= k).Ends log w Q :=
  h _

end Task

/-! ## Computations of a batch -/

namespace BatchM

/-- Started with the batch `b` in `w`, the computation ends with a result, a batch and a state that satisfy
`Q`. -/
def Ends (x : BatchM (StateM σ) α) (b : Batch) (log : Log) (w : σ)
    (Q : Except Fault α → Batch → σ → Prop) : Prop :=
  Q (((x.run.run b).run log).run w).1.1.1 (((x.run.run b).run log).run w).1.1.2
    (((x.run.run b).run log).run w).2

variable {b : Batch} {log : Log} {w : σ} {Q R : Except Fault α → Batch → σ → Prop}

theorem Ends.mono {x : BatchM (StateM σ) α} (h : x.Ends b log w R)
    (hQ : ∀ r b' w', R r b' w' → Q r b' w') : x.Ends b log w Q := hQ _ _ _ h

theorem ends_pure {a : α} : (pure a : BatchM (StateM σ) α).Ends b log w Q ↔ Q (.ok a) b w := Iff.rfl

theorem ends_count {change : Counts → Counts} {Q : Except Fault Unit → Batch → σ → Prop} :
    (Batch.count change : BatchM (StateM σ) Unit).Ends b log w Q ↔
      Q (.ok ()) { b with counts := change b.counts } w := Iff.rfl

theorem ends_task {t : Task (StateM σ) α} :
    (Batch.task t).Ends b log w Q ↔ t.Ends log w fun r w' => Q r b w' := Iff.rfl

theorem run_bind (x : BatchM (StateM σ) β) (k : β → BatchM (StateM σ) α) (b : Batch) (log : Log) (w : σ) :
    (((x >>= k).run.run b).run log).run w = match ((x.run.run b).run log).run w with
      | (((.ok a, b'), log'), w') => (((k a).run.run b').run log').run w'
      | (((.error e, b'), log'), w') => (((.error e, b'), log'), w') := by
  rcases h : ((x.run.run b).run log).run w with ⟨⟨⟨r, b'⟩, log'⟩, w'⟩
  cases r <;> simp only [ExceptT.run_bind, StateT.run_bind, h] <;> rfl

theorem Ends.bind {x : BatchM (StateM σ) β} {k : β → BatchM (StateM σ) α}
    {R : Except Fault β → Batch → σ → Prop} (hx : x.Ends b log w R)
    (hk : ∀ a b' log' w', R (.ok a) b' w' → (k a).Ends b' log' w' Q)
    (he : ∀ e b' w', R (.error e) b' w' → Q (.error e) b' w') : (x >>= k).Ends b log w Q := by
  unfold Ends at hx ⊢
  rw [run_bind]
  rcases h : ((x.run.run b).run log).run w with ⟨⟨⟨r, b'⟩, log'⟩, w'⟩
  rw [h] at hx
  cases r with
  | ok a => exact hk a b' log' w' hx
  | error e => exact he e b' w' hx

theorem ends_log_bind {level : Log.Level} {text : String} {k : Unit → BatchM (StateM σ) α}
    (h : ∀ log', (k ()).Ends b log' w Q) : (Batch.log level text >>= k).Ends b log w Q :=
  h _

theorem ends_modify_bind {change : Batch → Batch} {k : Unit → BatchM (StateM σ) α}
    (h : (k ()).Ends (change b) log w Q) : (modifyThe Batch change >>= k).Ends b log w Q :=
  h

theorem ends_count_bind {change : Counts → Counts} {k : Unit → BatchM (StateM σ) α}
    (h : (k ()).Ends { b with counts := change b.counts } log w Q) :
    (Batch.count change >>= k).Ends b log w Q :=
  h

theorem ends_mk_bind {x : Except Fault β} {k : β → BatchM (StateM σ) α}
    (hk : ∀ a log', x = .ok a → (k a).Ends b log' w Q) (he : ∀ e, x = .error e → Q (.error e) b w) :
    Ends (ExceptT.mk (pure x) >>= k) b log w Q := by
  cases x with
  | ok a => exact hk a log rfl
  | error e => exact he e rfl

theorem ends_lift_bind {x : StateM σ (Except Fault β)} {k : β → BatchM (StateM σ) α}
    (hk : ∀ a log', (x.run w).1 = .ok a → (k a).Ends b log' (x.run w).2 Q)
    (he : ∀ e, (x.run w).1 = .error e → Q (.error e) b (x.run w).2) :
    (Batch.task (Task.lift x) >>= k).Ends b log w Q := by
  refine Ends.bind (R := fun r b' w' => r = (x.run w).1 ∧ b' = b ∧ w' = (x.run w).2) ⟨rfl, rfl, rfl⟩ ?_ ?_
  · rintro a _ log' _ ⟨ha, rfl, rfl⟩
    exact hk a log' ha.symm
  · rintro e _ _ ⟨ha, rfl, rfl⟩
    exact he e ha.symm

theorem ends_get_bind {k : Batch → BatchM (StateM σ) α} (h : (k b).Ends b log w Q) :
    (getThe Batch >>= k).Ends b log w Q :=
  h

theorem ends_task_bind {t : Task (StateM σ) β} {k : β → BatchM (StateM σ) α} {R : Except Fault β → σ → Prop}
    (ht : t.Ends log w R) (hk : ∀ a log' w', R (.ok a) w' → (k a).Ends b log' w' Q)
    (he : ∀ e w', R (.error e) w' → Q (.error e) b w') : (Batch.task t >>= k).Ends b log w Q := by
  refine Ends.bind (R := fun x b' w' => R x w' ∧ b' = b) (ends_task.mpr ⟨ht, rfl⟩) ?_ ?_
  · rintro a _ log' w' ⟨h, rfl⟩
    exact hk a log' w' h
  · rintro e _ w' ⟨h, rfl⟩
    exact he e w' h

end BatchM

end Backmap
