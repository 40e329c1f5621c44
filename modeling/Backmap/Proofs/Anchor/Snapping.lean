import Backmap.Proofs.Anchor.Index
import Backmap.Proofs.Ends
import Mathlib.Order.Bounds.Basic

/-!
# Snapping

The searches by halves find in an increasing index what a search from one end to the other would find. Snapping is
therefore a rounding down to the indexed lines, bounded by how far it may reach.
-/

namespace Backmap

/-! ## Searching by halves -/

section Search

variable {p : Int → Bool} {xs : List Int}

/-- If `p` holds at the positions below `n` and at no others, the search ends at `n`. -/
theorem bisect_eq {ys : Array Int} {n low high : Nat}
    (hp : ∀ i, i < ys.size → (p (ys.getD i 0) = true ↔ i < n)) (hhigh : high ≤ ys.size) (hlow : low ≤ n)
    (hn : n ≤ high) : bisect p ys low high = n := by
  fun_induction bisect p ys low high with
  | case1 low high hlt mid hmid ih =>
      have hbelow := (hp mid (by omega)).mp hmid
      exact ih hhigh hbelow hn
  | case2 low high hlt mid hmid ih =>
      have habove := mt (hp mid (by omega)).mpr hmid
      exact ih (by omega) hlow (by omega)
  | case3 low high hge => omega

theorem getD_iff_lt_takeWhile (h : xs.Pairwise fun x y => p y = true → p x = true) {i : Nat} (hi : i < xs.length) :
    p (xs.getD i 0) = true ↔ i < (xs.takeWhile p).length := by
  induction xs generalizing i with
  | nil => cases hi
  | cons x xs ih =>
      obtain ⟨hx, hxs⟩ := List.pairwise_cons.mp h
      by_cases hpx : p x = true
      · rw [List.takeWhile_cons_of_pos hpx]
        cases i with
        | zero => simp [hpx]
        | succ i => simpa using ih hxs (Nat.lt_of_succ_lt_succ hi)
      · rw [List.takeWhile_cons_of_neg hpx]
        cases i with
        | zero => simp [hpx]
        | succ i =>
            have hi : i < xs.length := Nat.lt_of_succ_lt_succ hi
            have hmem : xs.getD i 0 ∈ xs := by simp [List.getD_eq_getElem?_getD, hi]
            simpa using fun hp => hpx (hx _ hmem hp)

theorem bisect_eq_takeWhile (h : xs.Pairwise fun x y => p y = true → p x = true) :
    bisect p xs.toArray 0 xs.toArray.size = (xs.takeWhile p).length := by
  apply bisect_eq
  · intro i hi
    simpa [Array.getD_eq_getD_getElem?, List.getD_eq_getElem?_getD] using getD_iff_lt_takeWhile h (by simpa using hi)
  · exact Nat.le_refl _
  · exact Nat.zero_le _
  · simpa using (List.takeWhile_prefix p).length_le

theorem takeWhile_eq_filter (h : xs.Pairwise fun x y => p y = true → p x = true) : xs.takeWhile p = xs.filter p := by
  induction xs with
  | nil => rfl
  | cons x xs ih =>
      obtain ⟨hx, hxs⟩ := List.pairwise_cons.mp h
      by_cases hpx : p x = true
      · rw [List.takeWhile_cons_of_pos hpx, List.filter_cons_of_pos hpx, ih hxs]
      · have hnone : xs.filter p = [] := List.filter_eq_nil_iff.mpr fun y hy hp => hpx (hx y hy hp)
        rw [List.takeWhile_cons_of_neg hpx, List.filter_cons_of_neg hpx, hnone]

theorem getLast?_eq_some_iff_isGreatest (h : xs.Pairwise (· < ·)) {x : Int} :
    xs.getLast? = some x ↔ IsGreatest {y | y ∈ xs} x := by
  have hlast : ∀ {x}, xs.getLast? = some x → IsGreatest {y | y ∈ xs} x := by
    intro x hx
    obtain ⟨front, rfl⟩ := List.getLast?_eq_some_iff.mp hx
    refine ⟨by simp, fun y hy => ?_⟩
    rcases List.mem_append.mp hy with hy | hy
    · exact Int.le_of_lt ((List.pairwise_append.mp h).2.2 y hy x (by simp))
    · exact (List.mem_singleton.mp hy).le
  constructor
  · exact hlast
  · intro hx
    cases hl : xs.getLast? with
    | none =>
        rw [List.getLast?_eq_none_iff.mp hl] at hx
        cases hx.1
    | some z => rw [(hlast hl).unique hx]

end Search

namespace AnchorIndex

def Increasing (a : AnchorIndex) : Prop := a.lines.Pairwise (· < ·)

instance (a : AnchorIndex) : Decidable a.Increasing := inferInstanceAs (Decidable (a.lines.Pairwise (· < ·)))

/-- The indexed lines that are not behind `line`. -/
def upTo (a : AnchorIndex) (line : Int) : Set Int := {anchor | anchor ∈ a.lines ∧ anchor ≤ line}

variable {a : AnchorIndex} {line reach anchor : Int}

/-! ## Looking up -/

theorem Increasing.holds_first (h : a.Increasing) {p : Int → Bool} (hp : ∀ x y, x < y → p y = true → p x = true) :
    a.lines.Pairwise fun x y => p y = true → p x = true := List.Pairwise.imp (hp _ _) h

theorem Increasing.contains_iff (h : a.Increasing) : a.contains line = true ↔ line ∈ a.lines := by
  have hfirst := h.holds_first (p := (· < line)) fun x y hxy hy => by simp at hy ⊢; omega
  unfold contains
  dsimp only
  rw [bisect_eq_takeWhile hfirst, beq_iff_eq, List.getElem?_toArray]
  constructor
  · exact List.mem_of_getElem?
  · intro hmem
    obtain ⟨i, hi, hline⟩ := List.mem_iff_getElem.mp hmem
    have hat : ∀ k (hk : k < a.lines.length), a.lines[k] < line ↔ k < (a.lines.takeWhile (· < line)).length := by
      intro k hk
      simpa [List.getD_eq_getElem?_getD, hk] using getD_iff_lt_takeWhile hfirst hk
    -- the search stops at `line` itself: it is not before the line, and all that is before it is passed
    have hstop : (a.lines.takeWhile (· < line)).length = i := by
      rcases Nat.lt_trichotomy (a.lines.takeWhile (· < line)).length i with hlt | heq | hgt
      · have hbefore := List.pairwise_iff_getElem.mp h _ i (hlt.trans hi) hi hlt
        rw [hline] at hbefore
        exact absurd ((hat _ (hlt.trans hi)).mp hbefore) (Nat.lt_irrefl _)
      · exact heq
      · exact absurd ((hat i hi).mpr hgt) (hline ▸ Int.lt_irrefl _)
    rw [hstop, List.getElem?_eq_getElem hi, hline]

/-- The search for the nearest line comes to what reading the index from end to end would. -/
theorem Increasing.nearest?_eq (h : a.Increasing) :
    a.nearest? line = (a.lines.filter (· ≤ line)).getLast? := by
  have hfirst := h.holds_first (p := (· ≤ line)) fun x y hxy hy => by simp at hy ⊢; omega
  unfold nearest?
  dsimp only
  rw [bisect_eq_takeWhile hfirst, ← takeWhile_eq_filter hfirst, List.getLast?_eq_getElem?]
  split
  · next hnone => simp [List.length_eq_zero_iff.mp hnone]
  · next k hlen =>
    have hk : k < (a.lines.takeWhile (· ≤ line)).length := by omega
    have hprefix := List.prefix_iff_getElem?.mp (List.takeWhile_prefix (l := a.lines) (· ≤ line)) k hk
    rw [hlen, Nat.succ_sub_one, List.getElem?_toArray, hprefix, List.getElem?_eq_getElem hk]

theorem Increasing.nearest?_eq_some (h : a.Increasing) :
    a.nearest? line = some anchor ↔ IsGreatest (a.upTo line) anchor := by
  have hset : {x | x ∈ a.lines.filter (· ≤ line)} = a.upTo line := by
    ext x
    simp [upTo]
  rw [h.nearest?_eq, getLast?_eq_some_iff_isGreatest (List.Pairwise.filter _ h), hset]

theorem Increasing.nearest?_eq_none (h : a.Increasing) : a.nearest? line = none ↔ a.upTo line = ∅ := by
  rw [h.nearest?_eq, List.getLast?_eq_none_iff, List.filter_eq_nil_iff, Set.eq_empty_iff_forall_notMem]
  simp [upTo]

theorem isGreatest_upTo_self (h : line ∈ a.lines) : IsGreatest (a.upTo line) line :=
  ⟨⟨h, Int.le_refl line⟩, fun _ hx => hx.2⟩

theorem Increasing.snap?_eq_some (h : a.Increasing) :
    a.snap? line reach = some anchor ↔
      IsGreatest (a.upTo line) anchor ∧ (anchor = line ∨ line - anchor ≤ reach) := by
  unfold snap?
  by_cases hline : line ∈ a.lines
  · rw [if_pos (h.contains_iff.mpr hline), Option.some_inj]
    constructor
    · rintro rfl
      exact ⟨isGreatest_upTo_self hline, .inl rfl⟩
    · exact fun hanchor => (isGreatest_upTo_self hline).unique hanchor.1
  · rw [if_neg (mt h.contains_iff.mp hline), Option.filter_eq_some_iff, h.nearest?_eq_some, decide_eq_true_iff]
    constructor
    · exact fun ⟨hanchor, hreach⟩ => ⟨hanchor, .inr hreach⟩
    · rintro ⟨hanchor, rfl | hreach⟩
      · exact absurd hanchor.1.1 hline
      · exact ⟨hanchor, hreach⟩

theorem Increasing.snap?_eq_none (h : a.Increasing) :
    a.snap? line reach = none ↔
      ∀ anchor, IsGreatest (a.upTo line) anchor → anchor ≠ line ∧ reach < line - anchor := by
  simp only [Option.eq_none_iff_forall_ne_some, ne_eq, h.snap?_eq_some, not_and, not_or, Int.not_le]

/-! ## The index of a text -/

theorem indicesWhere_increasing (p : List Char → Bool) (n : Nat) (ls : List (List Char)) :
    (indicesWhere p n ls).Pairwise (· < ·) := by
  induction ls generalizing n with
  | nil => exact .nil
  | cons l ls ih =>
      unfold indicesWhere
      split
      · refine List.pairwise_cons.mpr ⟨fun i hi => ?_, ih (n + 1)⟩
        obtain ⟨k, -, -, -, rfl⟩ := mem_indicesWhere hi
        omega
      · exact ih (n + 1)

theorem build_increasing (text : String) (tokens : List String) : (build text tokens).Increasing :=
  indicesWhere_increasing _ 0 _

/-- An increasing index, such as that of every text, is searched exactly: a line is found where it is indexed, and the
nearest one is the greatest that is not behind. A line is snapped onto that one if it is the line itself or within
reach. -/
theorem search_exact :
    (∀ a : AnchorIndex, a.Increasing → ∀ line reach : Int,
      (a.contains line = true ↔ line ∈ a.lines) ∧
      (∀ anchor, a.nearest? line = some anchor ↔ IsGreatest (a.upTo line) anchor) ∧
      (a.nearest? line = none ↔ a.upTo line = ∅) ∧
      (∀ anchor, a.snap? line reach = some anchor ↔
        IsGreatest (a.upTo line) anchor ∧ (anchor = line ∨ line - anchor ≤ reach)) ∧
      (a.snap? line reach = none ↔
        ∀ anchor, IsGreatest (a.upTo line) anchor → anchor ≠ line ∧ reach < line - anchor)) ∧
    ∀ text tokens, (build text tokens).Increasing := by
  refine ⟨fun a h line reach => ?_, build_increasing⟩
  exact ⟨h.contains_iff, fun _ => h.nearest?_eq_some, h.nearest?_eq_none, fun _ => h.snap?_eq_some, h.snap?_eq_none⟩

theorem search_exact_three :
    Increasing ⟨[2, 8, 20]⟩ ∧ AnchorIndex.nearest? ⟨[2, 8, 20]⟩ 1 = none ∧
      AnchorIndex.snap? ⟨[2, 8, 20]⟩ 10 2 = some 8 ∧ AnchorIndex.snap? ⟨[2, 8, 20]⟩ 8 (-1) = some 8 ∧
      AnchorIndex.snap? ⟨[2, 8, 20]⟩ 10 1 = none := by
  have hincreasing : Increasing ⟨[2, 8, 20]⟩ := by decide
  have hnear : ∀ line : Int, 8 ≤ line → line < 20 → IsGreatest (upTo ⟨[2, 8, 20]⟩ line) 8 := by
    intro line hlow hhigh
    refine ⟨⟨by simp, hlow⟩, ?_⟩
    rintro x ⟨hx, hle⟩
    simp only [List.mem_cons, List.not_mem_nil, or_false] at hx
    omega
  have hexact := search_exact.1 ⟨[2, 8, 20]⟩ hincreasing
  refine ⟨hincreasing, (hexact 1 0).2.2.1.mpr ?_, ?_, ?_, ?_⟩
  · ext x
    simp only [upTo, List.mem_cons, List.not_mem_nil, or_false, Set.mem_ofPred_eq, Set.mem_empty_iff_false, iff_false]
    omega
  · exact ((hexact 10 2).2.2.2.1 8).mpr ⟨hnear 10 (by decide) (by decide), .inr (by decide)⟩
  · exact ((hexact 8 (-1)).2.2.2.1 8).mpr ⟨hnear 8 (by decide) (by decide), .inl rfl⟩
  · refine (hexact 10 1).2.2.2.2.mpr fun anchor hanchor => ?_
    rw [hanchor.unique (hnear 10 (by decide) (by decide))]
    decide

/-! ## Rounding down -/

/-- The line that a diagnostic is shown at: the one that it is snapped onto, or its own. -/
def roundDown (a : AnchorIndex) (reach line : Int) : Int := (a.snap? line reach).getD line

theorem Increasing.roundDown_eq (h : a.Increasing) (hanchor : IsGreatest (a.upTo line) anchor)
    (hreach : anchor = line ∨ line - anchor ≤ reach) : a.roundDown reach line = anchor := by
  rw [roundDown, h.snap?_eq_some.mpr ⟨hanchor, hreach⟩, Option.getD_some]

/-- A line stays, or it goes onto the nearest indexed line, which is within reach. -/
theorem Increasing.roundDown_cases (h : a.Increasing) (reach line : Int) :
    a.roundDown reach line = line ∨
      IsGreatest (a.upTo line) (a.roundDown reach line) ∧ line - a.roundDown reach line ≤ reach := by
  unfold roundDown
  cases hsnap : a.snap? line reach with
  | none => exact .inl rfl
  | some anchor =>
      obtain ⟨hanchor, rfl | hreach⟩ := h.snap?_eq_some.mp hsnap
      · exact .inl rfl
      · exact .inr ⟨hanchor, hreach⟩

theorem Increasing.roundDown_le (h : a.Increasing) (reach line : Int) : a.roundDown reach line ≤ line := by
  rcases h.roundDown_cases reach line with hstays | ⟨hanchor, -⟩
  · exact hstays.le
  · exact hanchor.1.2

theorem Increasing.roundDown_of_mem (h : a.Increasing) (hline : line ∈ a.lines) : a.roundDown reach line = line :=
  h.roundDown_eq (isGreatest_upTo_self hline) (.inl rfl)

theorem Increasing.roundDown_roundDown (h : a.Increasing) (reach line : Int) :
    a.roundDown reach (a.roundDown reach line) = a.roundDown reach line := by
  rcases h.roundDown_cases reach line with hstays | ⟨hanchor, -⟩
  · rw [hstays, hstays]
  · exact h.roundDown_of_mem hanchor.1.1

/-- Lines keep their order. Where the lower one moves, the upper one is above its anchor or goes onto it as well. -/
theorem Increasing.roundDown_mono (h : a.Increasing) {upper lower : Int} (hle : upper ≤ lower) :
    a.roundDown reach upper ≤ a.roundDown reach lower := by
  rcases h.roundDown_cases reach lower with hstays | ⟨hanchor, hreach⟩
  · rw [hstays]
    exact (h.roundDown_le reach upper).trans hle
  · by_cases habove : upper < a.roundDown reach lower
    · exact (h.roundDown_le reach upper).trans habove.le
    · have hsame : IsGreatest (a.upTo upper) (a.roundDown reach lower) :=
        ⟨⟨hanchor.1.1, Int.not_lt.mp habove⟩, fun x hx => hanchor.2 ⟨hx.1, hx.2.trans hle⟩⟩
      exact (h.roundDown_eq hsame (.inr (by omega))).le

theorem Increasing.roundDown_anti (h : a.Increasing) {reach' : Int} (hle : reach ≤ reach') (line : Int) :
    a.roundDown reach' line ≤ a.roundDown reach line := by
  rcases h.roundDown_cases reach line with hstays | ⟨hanchor, hreach⟩
  · rw [hstays]
    exact h.roundDown_le reach' line
  · exact (h.roundDown_eq hanchor (.inr (hreach.trans hle))).le

theorem Increasing.sub_roundDown_le (h : a.Increasing) (reach line : Int) :
    line - a.roundDown reach line ≤ max reach 0 := by
  rcases h.roundDown_cases reach line with hstays | ⟨-, hreach⟩
  · omega
  · exact hreach.trans (le_max_left reach 0)

end AnchorIndex

namespace Batch

open BatchM

/-- What a batch shows of a line in a source whose index it has or can make. -/
theorem snap_roundDown {σ : Type} {read : Reader (StateM σ)} {path : String} {b : Batch} {w : σ}
    {answer : AnchorCache.Answer} {a : AnchorIndex}
    (hanswer : ((AnchorCache.request read b.cache path).run w).1 = .ok answer) (hindex : answer.index = some a)
    (f : Frame) (log : Log) (line : Int) :
    (snap f read path line).Ends b log w fun x _ _ => x = .ok (a.roundDown f.settings.maxSnapDistance line) := by
  have hanchors : (anchors read path).Ends b log w fun x _ _ => x = .ok (some a) := by
    refine ends_get_bind <| ends_lift_bind ?_ ?_
    · intro answer' log' hanswer'
      obtain rfl := Except.ok.inj (hanswer.symm.trans hanswer')
      refine ends_modify_bind ?_
      simp only [hindex]
      cases answer.fresh <;> exact rfl
    · intro e he
      rw [hanswer] at he
      cases he
  refine Ends.bind hanchors ?_ ?_
  · intro index b' log' w' hx
    cases hx
    dsimp only
    unfold AnchorIndex.roundDown
    cases hsnap : a.snap? line f.settings.maxSnapDistance with
    | none => exact rfl
    | some anchor =>
        dsimp only
        split <;> exact rfl
  · intro e b' w' hx
    cases hx

end Batch

namespace AnchorIndex

/-- In an increasing index, showing a diagnostic at the line that it is snapped onto is a rounding down: it inverts no
order, is settled after one step, goes the further the greater its reach, but never beyond it, and leaves a line only
for the last indexed one before it. -/
theorem roundDown_rounds {a : AnchorIndex} (h : a.Increasing) {x y d d' : Int} (hxy : x ≤ y) (hd : d ≤ d') :
    a.roundDown d x ≤ a.roundDown d y ∧
      a.roundDown d (a.roundDown d x) = a.roundDown d x ∧
      a.roundDown d' x ≤ a.roundDown d x ∧ a.roundDown d x ≤ x ∧
      x - a.roundDown d x ≤ max d 0 ∧
      (a.roundDown d x ≠ x →
        a.roundDown d x ∈ a.lines ∧ ∀ anchor ∈ a.lines, ¬ (a.roundDown d x + 1 ≤ anchor ∧ anchor ≤ x)) ∧
      ∀ {σ : Type} (f : Batch.Frame) (read : Reader (StateM σ)) (path : String) (b : Batch) (log : Log) (w : σ)
        (answer : AnchorCache.Answer), ((AnchorCache.request read b.cache path).run w).1 = .ok answer →
        answer.index = some a → (Batch.snap f read path x).Ends b log w fun shown _ _ =>
          shown = .ok (a.roundDown f.settings.maxSnapDistance x) := by
  refine ⟨h.roundDown_mono hxy, h.roundDown_roundDown d x, h.roundDown_anti hd x, h.roundDown_le d x,
    h.sub_roundDown_le d x, ?_, ?_⟩
  · intro hmoved
    obtain ⟨hanchor, -⟩ := (h.roundDown_cases d x).resolve_left hmoved
    refine ⟨hanchor.1.1, fun anchor hmem hbetween => ?_⟩
    have hlast := hanchor.2 ⟨hmem, hbetween.2⟩
    omega
  · intro σ f read path b log w answer hanswer hindex
    exact Batch.snap_roundDown hanswer hindex f log x

theorem roundDown_rounds_known :
    Increasing ⟨[2, 8, 20]⟩ ∧
      roundDown ⟨[2, 8, 20]⟩ 1 10 ≤ roundDown ⟨[2, 8, 20]⟩ 1 21 ∧
      roundDown ⟨[2, 8, 20]⟩ 30 10 ≤ roundDown ⟨[2, 8, 20]⟩ 1 10 ∧
      (Batch.snap ⟨{}, "/ws", "/ws", "/ws", []⟩ (fun _ => pure (.ok .silent)) "/ws/a.go" 10 :
          BatchM (StateM Unit) Int).Ends
        { cache := { tokens := [], known := [("/ws/a.go", ⟨[2, 8, 20]⟩)] } } #[] () fun shown _ _ =>
          shown = .ok (roundDown ⟨[2, 8, 20]⟩ 30 10) := by
  have hincreasing : Increasing ⟨[2, 8, 20]⟩ := by decide
  obtain ⟨hmono, -, hanti, -, -, -, hshown⟩ :=
    roundDown_rounds hincreasing (show (10 : Int) ≤ 21 by decide) (show (1 : Int) ≤ 30 by decide)
  exact ⟨hincreasing, hmono, hanti, hshown _ _ _ _ _ _ _ (by rfl) rfl⟩

end AnchorIndex

end Backmap
