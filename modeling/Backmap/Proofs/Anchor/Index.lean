import Backmap.Anchor.Index

/-!
# Anchor indices
-/

namespace Backmap.AnchorIndex

variable {a : AnchorIndex} {line reach anchor : Int}

theorem mem_of_nearest? (h : a.nearest? line = some anchor) : anchor ∈ a.lines := by
  unfold nearest? at h
  dsimp only at h
  split at h
  · cases h
  · exact List.mem_of_getElem? (by simpa using h)

theorem eq_or_mem_of_snap? (h : a.snap? line reach = some anchor) : anchor = line ∨ anchor ∈ a.lines := by
  unfold snap? at h
  split at h
  · exact .inl (Option.some.inj h).symm
  · exact .inr (mem_of_nearest? (Option.filter_eq_some_iff.mp h).1)

theorem bisect_singleton (p : Int → Bool) (anchor : Int) : bisect p #[anchor] 0 1 = if p anchor then 1 else 0 := by
  simp [bisect]

theorem snap?_singleton (hle : anchor ≤ line) (hreach : line - anchor ≤ reach) :
    snap? ⟨[anchor]⟩ line reach = some anchor := by
  by_cases hline : anchor = line
  · simp [snap?, contains, bisect_singleton, hline]
  · have hlt : anchor < line := by omega
    simp [snap?, contains, nearest?, bisect_singleton, hle, hlt, hreach, Option.filter]

theorem mem_indicesWhere {p : List Char → Bool} {n : Nat} {ls : List (List Char)} {i : Int}
    (h : i ∈ indicesWhere p n ls) : ∃ k l, ls[k]? = some l ∧ p l = true ∧ i = (n + k : Nat) := by
  induction ls generalizing n with
  | nil => cases h
  | cons l ls ih =>
      have hrest : i ∈ indicesWhere p (n + 1) ls → ∃ k m, (l :: ls)[k]? = some m ∧ p m = true ∧ i = (n + k : Nat) := by
        intro h
        obtain ⟨k, m, hk, hm, rfl⟩ := ih h
        exact ⟨k + 1, m, hk, hm, by rw [Nat.add_right_comm, Nat.add_assoc]⟩
      unfold indicesWhere at h
      split at h
      · next hl =>
        rcases List.mem_cons.mp h with rfl | h
        · exact ⟨0, l, rfl, hl, rfl⟩
        · exact hrest h
      · exact hrest h

theorem nonneg_of_mem_build {text : String} {tokens : List String} {i : Int} (h : i ∈ (build text tokens).lines) :
    0 ≤ i := by
  obtain ⟨k, l, -, -, rfl⟩ := mem_indicesWhere h
  exact Int.natCast_nonneg _

end Backmap.AnchorIndex
