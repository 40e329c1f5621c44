import Backmap.Proofs.Marker

/-!
# Numbers of lines

Whoever reads a generated file from top to bottom can keep count of the source lines: a marker sets the count, and every
other line adds one. Looking a line up from the last marker backwards comes to the same number.
-/

namespace Backmap.Marker

variable {token line : List Char} {lines : List (List Char)} {markers : List Marker} {m : Marker}

/-! ## Counting from top to bottom -/

/-- The number that a marker line declares for the line behind it. -/
def declared? (token line : List Char) : Option Nat :=
  (parts? token (Text.trimLeft line)).map fun (_, digits) => Numeral.value digits

/-- The number of a line, given that of the line above it. -/
def countOn (token line : List Char) (above : Option Int) : Option Int :=
  match declared? token line with
  | some n => some ((n : Int) - 1)
  | none => above.map (· + 1)

/-- The number of the line `i`, given that of the line above the first. Behind the last line it counts on. -/
def numberAt (token : List Char) (above : Option Int) : List (List Char) → Nat → Option Int
  | [], i => above.map (· + ((i : Int) + 1))
  | line :: _, 0 => countOn token line above
  | line :: lines, i + 1 => numberAt token (countOn token line above) lines i

theorem declared?_eq_some {n : Nat} : declared? token line = some n ↔ ∃ m, Reads token line m ∧ m.line = n := by
  unfold declared? Reads
  constructor
  · intro h
    obtain ⟨⟨path, digits⟩, hp, rfl⟩ := Option.map_eq_some_iff.mp h
    exact ⟨⟨0, String.ofList path, Numeral.value digits⟩, ⟨path, digits, hp, rfl, rfl⟩, rfl⟩
  · rintro ⟨m, ⟨path, digits, hp, -, hline⟩, hn⟩
    rw [hp, Option.map_some, Option.some_inj]
    exact Int.ofNat.inj (hline.symm.trans hn)

theorem declared?_eq_none : declared? token line = none ↔ ∀ m, ¬ Reads token line m := by
  constructor
  · rintro h m ⟨path, digits, hp, -, -⟩
    simp [declared?, hp] at h
  · intro h
    cases hn : declared? token line with
    | none => rfl
    | some n =>
        obtain ⟨m, hread, -⟩ := declared?_eq_some.mp hn
        exact absurd hread (h m)

theorem numberAt_of_unmarked {i : Nat} (above : Option Int)
    (h : ∀ k ≤ i, ∀ line ∈ lines[k]?, declared? token line = none) :
    numberAt token above lines i = above.map (· + ((i : Int) + 1)) := by
  induction lines generalizing above i with
  | nil => rfl
  | cons line lines ih =>
      have hfirst : countOn token line above = above.map (· + 1) := by
        rw [countOn, h 0 (Nat.zero_le i) line rfl]
      cases i with
      | zero => simpa [numberAt] using hfirst
      | succ i =>
          rw [numberAt, hfirst, ih _ fun k hk => h (k + 1) (Nat.succ_le_succ hk), Option.map_map]
          congr 1
          funext n
          simp only [Function.comp_apply]
          omega

theorem numberAt_of_marker {i k n : Nat} (above : Option Int) (hk : lines[k]? = some line)
    (hline : declared? token line = some n) (hki : k ≤ i)
    (hlater : ∀ j, k < j → j ≤ i → ∀ line ∈ lines[j]?, declared? token line = none) :
    numberAt token above lines i = some ((n : Int) - 1 + (i - k)) := by
  induction lines generalizing above i k with
  | nil => cases hk
  | cons first lines ih =>
      cases k with
      | zero =>
          cases hk
          have hfirst : countOn token line above = some ((n : Int) - 1) := by rw [countOn, hline]
          cases i with
          | zero => simpa [numberAt] using hfirst
          | succ i =>
              rw [numberAt, hfirst,
                numberAt_of_unmarked _ fun k hk => hlater (k + 1) (Nat.succ_pos k) (Nat.succ_le_succ hk)]
              simp
      | succ k =>
          cases i with
          | zero => cases hki
          | succ i =>
              rw [numberAt, ih _ hk (Nat.le_of_succ_le_succ hki)
                fun j hkj hji => hlater (j + 1) (Nat.succ_lt_succ hkj) (Nat.succ_le_succ hji)]
              congr 1
              omega

/-! ## Looking up from the end -/

theorem governing?_eq_some {index : Int} (h : markers.Pairwise (·.index < ·.index)) :
    governing? markers index = some m ↔
      m ∈ markers ∧ m.index ≤ index ∧ ∀ m' ∈ markers, m'.index ≤ index → m'.index ≤ m.index := by
  rw [governing?, List.find?_eq_some_iff_append]
  constructor
  · rintro ⟨hm, later, earlier, hsplit, hlater⟩
    rw [List.reverse_eq_iff, List.reverse_append, List.reverse_cons, List.append_assoc] at hsplit
    subst hsplit
    refine ⟨by simp, by simpa using hm, fun m' hm' hle => ?_⟩
    rcases List.mem_append.mp hm' with hearlier | hrest
    · exact Int.le_of_lt ((List.pairwise_append.mp h).2.2 m' hearlier m (by simp))
    · rcases List.mem_cons.mp hrest with rfl | hm'
      · exact Int.le_refl _
      · simpa [hle] using hlater m' (List.mem_reverse.mp hm')
  · rintro ⟨hmem, hle, hlast⟩
    obtain ⟨earlier, later, rfl⟩ := List.append_of_mem hmem
    have hlater := (List.pairwise_cons.mp (List.pairwise_append.mp h).2.1).1
    refine ⟨by simpa using hle, later.reverse, earlier.reverse, by simp, fun m' hm' => ?_⟩
    have hm' := List.mem_reverse.mp hm'
    have hgt := hlater m' hm'
    have hlast := hlast m' (by simp [hm'])
    simp only [Bool.not_eq_true', decide_eq_false_iff_not, Int.not_le]
    omega

/-- The marker stands on the line `k`. -/
def StandsAt (token : List Char) (lines : List (List Char)) (k : Nat) (m : Marker) : Prop :=
  m.index = k ∧ ∃ line ∈ lines[k]?, Reads token line m

/-- The marker is the last one at or before the line `i`. -/
def Governs (token : List Char) (lines : List (List Char)) (i : Nat) (m : Marker) : Prop :=
  ∃ k ≤ i, StandsAt token lines k m ∧ ∀ j m', k < j → j ≤ i → ¬ StandsAt token lines j m'

theorem mem_iff_standsAt (h : ofLines token 0 lines = .ok markers) :
    m ∈ markers ↔ ∃ k, StandsAt token lines k m := by
  constructor
  · intro hm
    obtain ⟨k, line, hk, hread, hindex⟩ := mem_ofLines h hm
    exact ⟨k, by simpa using hindex, line, hk, hread⟩
  · rintro ⟨k, hindex, line, hk, hread⟩
    exact mem_ofLines_of_reads h hk hread (by simpa using hindex)

theorem governing?_iff_governs (h : ofLines token 0 lines = .ok markers) (i : Nat) :
    governing? markers i = some m ↔ Governs token lines i m := by
  rw [governing?_eq_some (ofLines_increasing h)]
  constructor
  · rintro ⟨hm, hle, hlast⟩
    obtain ⟨k, hk⟩ := (mem_iff_standsAt h).mp hm
    have hindex := hk.1
    refine ⟨k, by omega, hk, fun j m' hkj hji hj => ?_⟩
    have hindex' := hj.1
    have hle' := hlast m' ((mem_iff_standsAt h).mpr ⟨j, hj⟩) (by omega)
    omega
  · rintro ⟨k, hki, hk, hlater⟩
    have hindex := hk.1
    refine ⟨(mem_iff_standsAt h).mpr ⟨k, hk⟩, by omega, fun m' hm' hle => ?_⟩
    obtain ⟨j, hj⟩ := (mem_iff_standsAt h).mp hm'
    have hindex' := hj.1
    have hjk : ¬ k < j := fun hkj => hlater j m' hkj (by omega) hj
    omega

theorem declared?_of_not_standsAt {k : Nat} (h : ∀ m, ¬ StandsAt token lines k m) :
    ∀ line ∈ lines[k]?, declared? token line = none := by
  intro line hk
  refine declared?_eq_none.mpr ?_
  rintro m ⟨path, digits, hp, hpath, hline⟩
  exact h { m with index := k } ⟨rfl, line, hk, path, digits, hp, hpath, hline⟩

theorem governing?_eq_none (h : ofLines token 0 lines = .ok markers) (i : Nat) :
    governing? markers i = none ↔ ∀ k ≤ i, ∀ line ∈ lines[k]?, declared? token line = none := by
  rw [governing?, List.find?_eq_none]
  simp only [List.mem_reverse, decide_eq_true_eq]
  constructor
  · intro hnone k hki
    refine declared?_of_not_standsAt fun m hk => ?_
    have hindex := hk.1
    exact hnone m ((mem_iff_standsAt h).mpr ⟨k, hk⟩) (by omega)
  · intro hnone m hm hle
    obtain ⟨k, hindex, line, hk, hread⟩ := (mem_iff_standsAt h).mp hm
    exact declared?_eq_none.mp (hnone k (by omega) line hk) m hread

theorem resolve?_eq_numberAt (h : ofLines token 0 lines = .ok markers) (i : Nat) :
    resolve? markers i = (numberAt token none lines i).map fun c => max 0 (c - 1) := by
  unfold resolve?
  cases hg : governing? markers i with
  | none =>
      rw [numberAt_of_unmarked none ((governing?_eq_none h i).mp hg), Option.map_none, Option.map_none,
        Option.map_none]
  | some m =>
      obtain ⟨k, hki, ⟨hindex, line, hk, path, digits, hp, -, hline⟩, hlater⟩ := (governing?_iff_governs h i).mp hg
      have hdeclared : declared? token line = some (Numeral.value digits) := by rw [declared?, hp, Option.map_some]
      rw [numberAt_of_marker none hk hdeclared hki fun j hkj hji =>
        declared?_of_not_standsAt fun m' => hlater j m' hkj hji]
      simp only [Option.map_some, hindex, hline]
      congr 2
      omega

/-- The markers of a text can be read if no number is too long. Then looking a line up gives nothing before the first
marker, and from there on the number, counted from zero, that counting from the top of the text gives it, also behind
the last line; the marker that is found is the last one at or before the line. -/
theorem lookup_eq_count (text token : String) :
    ((∃ markers, findAll text token = .ok markers) ↔
        ∀ line ∈ Text.lines text.toList, Readable token.toList line) ∧
      ∀ markers, findAll text token = .ok markers → ∀ i : Nat,
        (resolve? markers i = none ↔
          ∀ k ≤ i, ∀ line ∈ (Text.lines text.toList)[k]?, declared? token.toList line = none) ∧
        resolve? markers i =
          (numberAt token.toList none (Text.lines text.toList) i).map (fun c => max 0 (c - 1)) ∧
        (∀ m, governing? markers i = some m ↔ Governs token.toList (Text.lines text.toList) i m) ∧
        ((governing? markers i).isSome ↔ (resolve? markers i).isSome) := by
  refine ⟨ofLines_ok_iff 0, fun markers h i => ⟨?_, resolve?_eq_numberAt h i, fun m => governing?_iff_governs h i, ?_⟩⟩
  · rw [resolve?, Option.map_eq_none_iff]
    exact governing?_eq_none h i
  · rw [resolve?, Option.isSome_map]

/-- Two markers in a row, the first with the number zero, and a line behind the end. -/
theorem lookup_eq_count_adjacent :
    findAll "x\n//line a.go:0\n//line b.go:7\ny" "//line" = .ok [⟨1, "a.go", 0⟩, ⟨2, "b.go", 7⟩] ∧
      resolve? [⟨1, "a.go", 0⟩, ⟨2, "b.go", 7⟩] 0 = none ∧
      resolve? [⟨1, "a.go", 0⟩, ⟨2, "b.go", 7⟩] 1 = some 0 ∧
      resolve? [⟨1, "a.go", 0⟩, ⟨2, "b.go", 7⟩] 5 = some 8 := by
  have hmarkers : findAll "x\n//line a.go:0\n//line b.go:7\ny" "//line" = .ok [⟨1, "a.go", 0⟩, ⟨2, "b.go", 7⟩] := by rfl
  have hcount := (lookup_eq_count "x\n//line a.go:0\n//line b.go:7\ny" "//line").2 _ hmarkers
  exact ⟨hmarkers, (hcount 0).2.1, (hcount 1).2.1, (hcount 5).2.1⟩

end Backmap.Marker
