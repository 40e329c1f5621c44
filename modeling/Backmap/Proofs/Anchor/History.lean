import Backmap.Proofs.Anchor.Cache

/-!
# The history of an anchor cache

A cache is asked for indices and told to forget, in any order, while its reader may answer otherwise each time. What it
holds for a path is decided by what has happened since it last forgot that path: the first text that was read then, and
the latest failure.
-/

namespace Backmap.AnchorCache

variable {σ : Type}

inductive Op where
  | get (path : String)
  | forget (path : String)
  | clear
  deriving DecidableEq

/-- Whether an operation may change what is held for a path. -/
def Op.Concerns (path : String) : Op → Prop
  | get p => p = path
  | forget p => p = path
  | clear => True

/-- What happens at a cache: its reader is asked and answers, or something is forgotten. -/
inductive Event where
  | read (path : String) (answer : Except Fault Reading)
  | forgot (path : String)
  | cleared

/-! ## Histories, the latest event first -/

namespace Event

/-- Whether a path is forgotten here. -/
def drops (path : String) : Event → Bool
  | read _ _ => false
  | forgot p => p == path
  | cleared => true

def reading? (path : String) : Event → Option Reading
  | read p (.ok r) => if p = path then some r else none
  | _ => none

end Event

/-- The readings of a path since it was last forgotten, the latest first. -/
def readings (path : String) (history : List Event) : List Reading :=
  (history.takeWhile fun e => !e.drops path).filterMap (·.reading? path)

/-- The text of the first successful reading since a path was last forgotten. -/
def firstText? (path : String) (history : List Event) : Option String :=
  ((readings path history).filterMap Reading.text?).getLast?

/-- The latest failed reading since a path was last forgotten. -/
def lastFailure? (path : String) (history : List Event) : Option Reading :=
  (readings path history).find? (·.text?.isNone)

section Readings

variable {path p : String} {history : List Event} {r : Reading} {text : String}

theorem readings_read_ok : readings path (.read path (.ok r) :: history) = r :: readings path history := by
  simp [readings, Event.drops, Event.reading?]

theorem readings_read_error {f : Fault} :
    readings path (.read p (.error f) :: history) = readings path history := by
  simp [readings, Event.drops, Event.reading?]

theorem readings_read_ne {answer : Except Fault Reading} (h : p ≠ path) :
    readings path (.read p answer :: history) = readings path history := by
  cases answer <;> simp [readings, Event.drops, Event.reading?, h]

theorem readings_forgot : readings path (.forgot path :: history) = [] := by
  simp [readings, Event.drops]

theorem readings_forgot_ne (h : p ≠ path) : readings path (.forgot p :: history) = readings path history := by
  simp [readings, Event.drops, Event.reading?, h]

theorem readings_cleared : readings path (.cleared :: history) = [] := by
  simp [readings, Event.drops]

/-- A path that is read has no text yet, so the one that is read now is the first. -/
theorem firstText?_read (h : firstText? path history = none) :
    firstText? path (.read path (.ok r) :: history) = r.text? := by
  have hnone : (readings path history).filterMap Reading.text? = [] := List.getLast?_eq_none_iff.mp h
  rw [firstText?, readings_read_ok, List.filterMap_cons, hnone]
  cases r.text? <;> rfl

theorem lastFailure?_read_text (h : r.text? = some text) :
    lastFailure? path (.read path (.ok r) :: history) = lastFailure? path history := by
  rw [lastFailure?, readings_read_ok, List.find?_cons_of_neg (by simp [h])]
  rfl

theorem lastFailure?_read_failed (h : r.text? = none) :
    lastFailure? path (.read path (.ok r) :: history) = some r := by
  rw [lastFailure?, readings_read_ok, List.find?_cons_of_pos (by simp [h])]

end Readings

/-! ## Runs -/

/-- The reader, with a note of every answer that it gives. -/
def noted (read : Reader (StateM σ)) : Reader (StateM (σ × List Event)) := fun path (w, history) =>
  (((read path).run w).1, ((read path).run w).2, .read path ((read path).run w).1 :: history)

/-- A cache, the world that its reader looks at, and what has happened so far. -/
structure Course (σ : Type) where
  cache : AnchorCache
  world : σ
  history : List Event

namespace Course

def step (read : Reader (StateM σ)) (c : Course σ) : Op → Course σ
  | .get path =>
    let (answer, world, history) := (request (noted read) c.cache path).run (c.world, c.history)
    match answer with
    | .ok a => ⟨a.cache, world, history⟩
    -- whoever asked is free to go on behind a fault
    | .error _ => ⟨c.cache, world, history⟩
  | .forget path => { c with cache := c.cache.forget path, history := .forgot path :: c.history }
  | .clear => { c with cache := c.cache.clear, history := .cleared :: c.history }

/-- The course from an empty cache through some operations. -/
def after (read : Reader (StateM σ)) (tokens : List String) (w : σ) (ops : List Op) : Course σ :=
  ops.foldl (step read) ⟨{ tokens }, w, []⟩

/-- The cache holds what the history says. -/
structure Told (c : Course σ) (tokens : List String) : Prop where
  same : c.cache.tokens = tokens
  known : ∀ path, lookup? path c.cache.known = (firstText? path c.history).map (AnchorIndex.build · tokens)
  failures : ∀ path, lookup? path c.cache.failures = lastFailure? path c.history

variable {read : Reader (StateM σ)} {c : Course σ} {tokens : List String} {path p : String} {w : σ}

theorem step_get_known {index : AnchorIndex} (h : lookup? path c.cache.known = some index) :
    c.step read (.get path) = c := by
  rw [step, request_of_known h]
  rfl

/-- A request that reads: the answer is noted, and the cache learns it unless it is a fault. -/
theorem step_get_unknown (h : lookup? path c.cache.known = none) :
    c.step read (.get path) =
      ⟨((read path).run c.world).1.toOption.elim c.cache (c.cache.learn path), ((read path).run c.world).2,
        .read path ((read path).run c.world).1 :: c.history⟩ := by
  rw [step, run_request_of_unknown h]
  have hnoted : (noted read path).run (c.world, c.history) =
      (((read path).run c.world).1, ((read path).run c.world).2,
        .read path ((read path).run c.world).1 :: c.history) := rfl
  rw [hnoted]
  cases ((read path).run c.world).1 <;> rfl

/-! ### One step -/

theorem Told.read_now (h : c.Told tokens) (hl : lookup? path c.cache.known = none) (r : Reading) (w : σ) :
    Told ⟨c.cache.learn path r, w, .read path (.ok r) :: c.history⟩ tokens := by
  have hfirst : firstText? path c.history = none := by
    rw [h.known path] at hl
    exact Option.map_eq_none_iff.mp hl
  refine ⟨(tokens_learn c.cache path r).trans h.same, fun p => ?_, fun p => ?_⟩
  · rw [lookup?_known_learn]
    by_cases hp : p = path
    · rw [if_pos hp, hp, firstText?_read hfirst, h.same, hl, Option.or_none]
    · rw [if_neg hp, firstText?, readings_read_ne (Ne.symm hp)]
      exact h.known p
  · rw [lookup?_failures_learn]
    by_cases hp : p = path
    · subst hp
      cases hr : r.text? with
      | none => rw [if_pos ⟨rfl, rfl⟩, lastFailure?_read_failed hr]
      | some text =>
          rw [if_neg (by simp), lastFailure?_read_text hr]
          exact h.failures p
    · rw [if_neg fun he => hp he.1, lastFailure?, readings_read_ne (Ne.symm hp)]
      exact h.failures p

theorem Told.get (h : c.Told tokens) (path : String) : (c.step read (.get path)).Told tokens := by
  cases hl : lookup? path c.cache.known with
  | some index => rwa [step_get_known hl]
  | none =>
      rw [step_get_unknown hl]
      cases ((read path).run c.world).1 with
      | ok r => exact h.read_now hl r _
      | error f =>
          refine ⟨h.same, fun p => ?_, fun p => ?_⟩
          · rw [firstText?, readings_read_error]
            exact h.known p
          · rw [lastFailure?, readings_read_error]
            exact h.failures p

theorem Told.forget (h : c.Told tokens) (path : String) : (c.step read (.forget path)).Told tokens := by
  refine ⟨h.same, fun p => ?_, fun p => ?_⟩
  · change lookup? p (c.cache.known.filter (·.1 != path)) = (firstText? p (.forgot path :: c.history)).map _
    rw [lookup?_filter]
    by_cases hp : p = path
    · rw [if_pos hp, hp, firstText?, readings_forgot]
      rfl
    · rw [if_neg hp, firstText?, readings_forgot_ne (Ne.symm hp)]
      exact h.known p
  · change lookup? p (c.cache.failures.filter (·.1 != path)) = lastFailure? p (.forgot path :: c.history)
    rw [lookup?_filter]
    by_cases hp : p = path
    · rw [if_pos hp, hp, lastFailure?, readings_forgot]
      rfl
    · rw [if_neg hp, lastFailure?, readings_forgot_ne (Ne.symm hp)]
      exact h.failures p

theorem Told.clear (h : c.Told tokens) : (c.step read .clear).Told tokens := by
  refine ⟨h.same, fun p => ?_, fun p => ?_⟩
  · change none = (firstText? p (.cleared :: c.history)).map _
    rw [firstText?, readings_cleared]
    rfl
  · change none = lastFailure? p (.cleared :: c.history)
    rw [lastFailure?, readings_cleared]
    rfl

theorem Told.step (h : c.Told tokens) (op : Op) : (c.step read op).Told tokens := by
  cases op with
  | get path => exact h.get path
  | forget path => exact h.forget path
  | clear => exact h.clear

theorem step_of_not_concerns {op : Op} (h : ¬ op.Concerns path) :
    lookup? path (c.step read op).cache.known = lookup? path c.cache.known ∧
      lookup? path (c.step read op).cache.failures = lookup? path c.cache.failures := by
  cases op with
  | get p =>
      have hp : path ≠ p := Ne.symm h
      cases hl : lookup? p c.cache.known with
      | some index =>
          rw [step_get_known hl]
          exact ⟨rfl, rfl⟩
      | none =>
          rw [step_get_unknown hl]
          cases ((read p).run c.world).1 with
          | error f => exact ⟨rfl, rfl⟩
          | ok r =>
              refine ⟨(lookup?_known_learn c.cache p path r).trans (if_neg hp), ?_⟩
              exact (lookup?_failures_learn c.cache p path r).trans (if_neg fun he => hp he.1)
  | forget p =>
      have hp : path ≠ p := Ne.symm h
      exact ⟨(lookup?_filter path p c.cache.known).trans (if_neg hp),
        (lookup?_filter path p c.cache.failures).trans (if_neg hp)⟩
  | clear => exact absurd trivial h

/-! ### Any number of steps -/

theorem Told.foldl (h : c.Told tokens) (ops : List Op) : (ops.foldl (Course.step read) c).Told tokens := by
  induction ops generalizing c with
  | nil => exact h
  | cons op ops ih => exact ih (h.step op)

theorem told_after (read : Reader (StateM σ)) (tokens : List String) (w : σ) (ops : List Op) :
    (after read tokens w ops).Told tokens :=
  Told.foldl ⟨rfl, fun _ => rfl, fun _ => rfl⟩ ops

end Course

open Course

/-- Behind any operations, a request brings the index of the first text that was read since its path was last
forgotten. It reads only if there is none yet, and brings nothing exactly if this reading fails as well. The failure
that is kept is the latest one, and no operation on another path changes what is held. -/
theorem request_by_history (read : Reader (StateM σ)) (tokens : List String) (w : σ) (ops : List Op) (path : String) :
    let c := after read tokens w ops
    let next := c.step read (.get path)
    let answer := ((request read c.cache path).run c.world).1
    let reading := ((read path).run c.world).1
    (∀ a, answer = .ok a →
      a.cache = next.cache ∧ a.index = (firstText? path next.history).map (AnchorIndex.build · tokens)) ∧
    (∀ text, firstText? path c.history = some text →
      answer = .ok ⟨some (.build text tokens), c.cache, false⟩ ∧ next = c) ∧
    (firstText? path c.history = none →
      next.history = .read path reading :: c.history ∧ ∀ f, answer = .error f ↔ reading = .error f) ∧
    ((∃ a, answer = .ok a ∧ a.index = none) ↔
      firstText? path c.history = none ∧ ∃ r, reading = .ok r ∧ r.text? = none) ∧
    lookup? path c.cache.failures = lastFailure? path c.history ∧
    ∀ op : Op, ¬ op.Concerns path →
      lookup? path (c.step read op).cache.known = lookup? path c.cache.known ∧
        lookup? path (c.step read op).cache.failures = lookup? path c.cache.failures := by
  intro c next answer reading
  have htold : c.Told tokens := told_after read tokens w ops
  have hknown := htold.known path
  cases hfirst : firstText? path c.history with
  | some text =>
      have hl : lookup? path c.cache.known = some (.build text tokens) := by rw [hknown, hfirst]; rfl
      have hnext : next = c := step_get_known hl
      have hanswer : answer = .ok ⟨some (.build text tokens), c.cache, false⟩ := by
        change ((request read c.cache path).run c.world).1 = _
        rw [request_of_known hl]
        rfl
      refine ⟨?_, ?_, nofun, ?_, htold.failures path, fun op => step_of_not_concerns⟩
      · intro a ha
        cases hanswer.symm.trans ha
        rw [hnext, hfirst]
        exact ⟨rfl, rfl⟩
      · rintro _ ⟨⟩
        exact ⟨hanswer, hnext⟩
      · rw [hanswer]
        simp
  | none =>
      have hl : lookup? path c.cache.known = none := by rw [hknown, hfirst]; rfl
      have hnext : next = ⟨reading.toOption.elim c.cache (c.cache.learn path), ((read path).run c.world).2,
          .read path reading :: c.history⟩ := step_get_unknown hl
      have hanswer : answer =
          reading.map fun r => ⟨r.text?.map (AnchorIndex.build · tokens), c.cache.learn path r, true⟩ := by
        change ((request read c.cache path).run c.world).1 = _
        rw [run_request_of_unknown hl, htold.same]
      refine ⟨?_, nofun, ?_, ?_, htold.failures path, fun op => step_of_not_concerns⟩
      · intro a ha
        rw [hanswer] at ha
        rw [hnext]
        cases hr : reading with
        | error f =>
            rw [hr] at ha
            cases ha
        | ok r =>
            rw [hr] at ha
            cases ha
            rw [firstText?_read hfirst]
            exact ⟨rfl, rfl⟩
      · intro _
        rw [hnext, hanswer]
        refine ⟨rfl, fun f => ?_⟩
        cases reading <;> simp [Except.map]
      · rw [hanswer]
        cases reading <;> simp [Except.map]

end Backmap.AnchorCache
