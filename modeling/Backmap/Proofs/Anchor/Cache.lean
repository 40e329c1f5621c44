import Backmap.Anchor.Cache

/-!
# What the anchor cache knows

Every index that a cache holds comes from an answer that its reader may give. A request keeps this so, and
what it brings comes from such an answer too, whether it was known or read.
-/

namespace Backmap

variable {σ α : Type}

/-- The reader gives answers in `A` only, from every state in `I`, which it does not leave. -/
structure Reader.Answers (read : Reader (StateM σ)) (I : σ → Prop) (A : String → Except Fault Reading → Prop) :
    Prop where
  answer : ∀ path w, I w → A path ((read path).run w).1
  stays : ∀ path w, I w → I ((read path).run w).2

namespace AnchorCache

/-! ## Pairs of a key and a value -/

theorem lookup?_nil (key : String) : lookup? key ([] : List (String × α)) = none := rfl

theorem lookup?_cons (key k : String) (v : α) (pairs : List (String × α)) :
    lookup? key ((k, v) :: pairs) = if k = key then some v else lookup? key pairs := by
  by_cases h : k = key <;> simp [lookup?, h]

theorem lookup?_concat (key k : String) (v : α) (pairs : List (String × α)) :
    lookup? key (pairs ++ [(k, v)]) = (lookup? key pairs).or (if k = key then some v else none) := by
  induction pairs with
  | nil => rw [List.nil_append, lookup?_cons, lookup?_nil, Option.none_or]
  | cons pair pairs ih =>
      obtain ⟨k', v'⟩ := pair
      rw [List.cons_append, lookup?_cons, lookup?_cons, ih]
      split <;> simp

theorem lookup?_eq_none {key : String} {pairs : List (String × α)} :
    lookup? key pairs = none ↔ pairs.any (·.1 == key) = false := by
  simp [lookup?]

theorem lookup?_map_set (key k : String) (v : α) (pairs : List (String × α)) :
    lookup? key (pairs.map fun (k', v') => if k' == k then (k', v) else (k', v')) =
      if key = k then (lookup? key pairs).map fun _ => v else lookup? key pairs := by
  induction pairs with
  | nil => simp [lookup?_nil]
  | cons pair pairs ih =>
      obtain ⟨k', v'⟩ := pair
      rw [List.map_cons, lookup?_cons, lookup?_cons, ih]
      by_cases hk : k' = k
      · rw [if_pos (beq_iff_eq.mpr hk), hk]
        by_cases hkey : key = k
        · simp [hkey]
        · simp [hkey, Ne.symm hkey]
      · rw [if_neg (mt beq_iff_eq.mp hk)]
        by_cases hkey : key = k
        · simp [hkey, hk]
        · simp [hkey]

theorem lookup?_set (key k : String) (v : α) (pairs : List (String × α)) :
    lookup? key (set k v pairs) = if key = k then some v else lookup? key pairs := by
  unfold set
  split
  · next h =>
    rw [lookup?_map_set]
    by_cases hkey : key = k
    · subst hkey
      cases hl : lookup? key pairs with
      | none => rw [lookup?_eq_none.mp hl] at h; cases h
      | some v' => simp
    · simp [hkey]
  · next h =>
    rw [lookup?_concat]
    by_cases hkey : key = k
    · subst hkey
      rw [lookup?_eq_none.mpr (Bool.eq_false_iff.mpr h)]
      simp
    · simp [hkey, Ne.symm hkey]

theorem lookup?_filter (key k : String) (pairs : List (String × α)) :
    lookup? key (pairs.filter (·.1 != k)) = if key = k then none else lookup? key pairs := by
  induction pairs with
  | nil => simp [lookup?_nil]
  | cons pair pairs ih =>
      obtain ⟨k', v⟩ := pair
      by_cases hk : k' = k
      · rw [List.filter_cons_of_neg (by simp [hk]), ih, lookup?_cons, hk]
        by_cases hkey : key = k
        · rw [if_pos hkey, if_pos hkey]
        · rw [if_neg hkey, if_neg hkey, if_neg (Ne.symm hkey)]
      · rw [List.filter_cons_of_pos (by simp [hk]), lookup?_cons, lookup?_cons, ih]
        by_cases hkey : key = k
        · rw [if_pos hkey, if_pos hkey, if_neg fun h => hk (h.trans hkey)]
        · rw [if_neg hkey, if_neg hkey]

/-! ## Requests -/

/-- Every index comes from a text that the reader may give. -/
def Faithful (c : AnchorCache) (A : String → Except Fault Reading → Prop) : Prop :=
  ∀ path index, lookup? path c.known = some index →
    ∃ text, A path (.ok (.text text)) ∧ index = .build text c.tokens

variable {c : AnchorCache} {A : String → Except Fault Reading → Prop} {path : String}

theorem Faithful.clear (c : AnchorCache) : c.clear.Faithful A := by
  intro path index h
  cases h

theorem tokens_learn (c : AnchorCache) (path : String) (r : Reading) : (c.learn path r).tokens = c.tokens := by
  cases r <;> rfl

theorem Faithful.learn {r : Reading} (h : c.Faithful A) (hr : A path (.ok r)) :
    (c.learn path r).Faithful A := by
  intro p index hp
  rw [tokens_learn]
  cases r with
  | text text =>
      change lookup? p (set path (.build text c.tokens) c.known) = some index at hp
      rw [lookup?_set] at hp
      split at hp
      · next he =>
        subst he
        exact ⟨text, hr, (Option.some.inj hp).symm⟩
      · exact h p index hp
  | refused _ => exact h p index hp
  | silent => exact h p index hp

theorem lookup?_known_learn (c : AnchorCache) (path p : String) (r : Reading) :
    lookup? p (c.learn path r).known =
      if p = path then (r.text?.map (AnchorIndex.build · c.tokens)).or (lookup? p c.known)
      else lookup? p c.known := by
  cases r with
  | text text =>
      change lookup? p (set path (.build text c.tokens) c.known) = _
      rw [lookup?_set]
      rfl
  | refused _ => exact (ite_self _).symm
  | silent => exact (ite_self _).symm

theorem lookup?_failures_learn (c : AnchorCache) (path p : String) (r : Reading) :
    lookup? p (c.learn path r).failures =
      if p = path ∧ r.text? = none then some r else lookup? p c.failures := by
  cases r with
  | text text => simp [learn, Reading.text?]
  | refused e => exact (lookup?_set p path _ _).trans (by simp [Reading.text?])
  | silent => exact (lookup?_set p path _ _).trans (by simp [Reading.text?])

theorem request_of_known {m : Type → Type} [Monad m] {read : Reader m} {index : AnchorIndex}
    (h : lookup? path c.known = some index) : request read c path = pure (.ok ⟨some index, c, false⟩) := by
  simp only [request, h]

theorem run_request_of_unknown {read : Reader (StateM σ)} {w : σ} (h : lookup? path c.known = none) :
    (request read c path).run w =
      (((read path).run w).1.map fun r => ⟨r.text?.map (AnchorIndex.build · c.tokens), c.learn path r, true⟩,
        ((read path).run w).2) := by
  simp only [request, h, StateT.run_bind]
  rcases (read path).run w with ⟨answer, w'⟩
  cases answer <;> rfl

/-- A request brings the index of a text that the reader may give, or none if it may fail to give one; it ends
with a fault only if the reader may do so. -/
theorem request_spec (path : String) {read : Reader (StateM σ)} {I : σ → Prop} {w : σ}
    (hread : read.Answers I A) (hw : I w) (h : c.Faithful A) :
    I ((request read c path).run w).2 ∧
      match ((request read c path).run w).1 with
      | .error e => A path (.error e)
      | .ok a => a.cache.Faithful A ∧ a.cache.tokens = c.tokens ∧
          ∃ r, A path (.ok r) ∧ a.index = r.text?.map (AnchorIndex.build · c.tokens) := by
  unfold request
  cases hl : lookup? path c.known with
  | some index =>
      obtain ⟨text, ht, rfl⟩ := h path index hl
      exact ⟨hw, h, rfl, .text text, ht, rfl⟩
  | none =>
      have ha := hread.answer path w hw
      have hs := hread.stays path w hw
      rcases hx : (read path).run w with ⟨x, w'⟩
      rw [hx] at ha hs
      simp only [StateT.run_bind, hx]
      cases x with
      | error e => exact ⟨hs, ha⟩
      | ok r => exact ⟨hs, h.learn ha, tokens_learn c path r, r, ha, rfl⟩

end AnchorCache

end Backmap
