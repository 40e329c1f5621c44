import Backmap.Path.Tidy
import Backmap.Proofs.Text.Lines

/-!
# Paths and their components
-/

namespace Backmap.Path

/-! ## Components -/

/-- A component as it stands between slashes in a path that is written without detours. -/
def Plain (c : List Char) : Prop := c ≠ [] ∧ c ≠ ['.'] ∧ '/' ∉ c

theorem plain_of_mem_components {path c : List Char} (h : c ∈ components path) : Plain c := by
  obtain ⟨hc, hne⟩ := List.mem_filter.mp h
  simp only [decide_eq_true_eq] at hne
  exact ⟨hne.1, hne.2, Text.notMem_of_mem_splitOn hc⟩

theorem components_unite {cs : List (List Char)} (h : ∀ c ∈ cs, Plain c) : components (unite cs) = cs := by
  cases cs with
  | nil => rfl
  | cons c cs =>
      have hslash : ∀ d ∈ c :: cs, '/' ∉ d := fun d hd => (h d hd).2.2
      rw [components, pieces, unite, Text.splitOn_eq, List.splitOn_intercalate '/' hslash (List.cons_ne_nil c cs)]
      exact List.filter_eq_self.mpr fun d hd => by simp [(h d hd).1, (h d hd).2.1]

theorem components_slash (path : List Char) : components ('/' :: path) = components path := by
  simp [components, pieces, Text.splitOn_eq, List.splitOn_cons_eq_if_modifyHead]

theorem components_append_slash (front back : List Char) :
    components (front ++ '/' :: back) = components front ++ components back := by
  have hslash : ('/' == '/') = true := rfl
  simp only [components, pieces, Text.splitOn_eq, List.splitOn_eq_splitOnP]
  rw [List.splitOnP_append_cons (p := (· == '/')) front back hslash, List.filter_append]

theorem components_of_notMem {c : List Char} (h : '/' ∉ c) :
    components c = if c = [] ∨ c = ['.'] then [] else [c] := by
  have hpieces : pieces c = [c] := by
    rw [pieces, Text.splitOn_eq, List.splitOn_eq_splitOnP]
    exact List.splitOnP_eq_singleton fun d hd => beq_eq_false_iff_ne.mpr fun he => h (he ▸ hd)
  rw [components, hpieces]
  by_cases hc : c = [] ∨ c = ['.']
  · rw [if_pos hc, List.filter_cons_of_neg (by simpa [← not_or] using hc), List.filter_nil]
  · rw [if_neg hc, List.filter_cons_of_pos (by simpa [← not_or] using hc), List.filter_nil]

theorem components_join (base path : List Char) :
    components (join base path) =
      if isAbsolute path then components path else components base ++ components path := by
  unfold join
  split
  · rfl
  · split
    · next hbase =>
      rcases hbase with rfl | hlast
      · rfl
      · obtain ⟨front, rfl⟩ := List.getLast?_eq_some_iff.mp hlast
        rw [List.append_assoc, List.singleton_append, components_append_slash, components_append_slash]
        exact congrArg (· ++ components path) (List.append_nil (components front)).symm
    · exact components_append_slash base path

/-! ## Normal forms -/

theorem rootSlashes_eq_nil {path : List Char} : rootSlashes path = [] ↔ isAbsolute path = false := by
  unfold rootSlashes
  split
  · simp [isAbsolute]
  · simp [isAbsolute]
  · simp [isAbsolute]
  · next h =>
    cases path with
    | nil => simp [isAbsolute]
    | cons c path =>
        have hc : c ≠ '/' := fun hc => h path (by rw [hc])
        simp [isAbsolute, hc]

theorem rootSlashes_cases (path : List Char) :
    rootSlashes path = [] ∨ rootSlashes path = ['/'] ∨ rootSlashes path = ['/', '/'] := by
  unfold rootSlashes
  split <;> simp

theorem components_rootSlashes (path rest : List Char) :
    components (rootSlashes path ++ rest) = components rest := by
  rcases rootSlashes_cases path with h | h | h <;> rw [h]
  · rfl
  · exact components_slash rest
  · exact (components_slash _).trans (components_slash rest)

theorem resolve_pieces (path : List Char) : resolve (pieces path) = resolve (components path) := by
  rw [resolve, resolve, components, List.foldl_filter]
  congr 3
  funext taken piece
  by_cases h : piece = [] ∨ piece = ['.']
  · rw [push, if_pos h, if_neg (by simpa [← not_or] using h)]
  · rw [if_pos (by simpa [← not_or] using h)]

theorem mem_foldl_push {ps taken : List (List Char)} {c : List Char} (h : c ∈ ps.foldl push taken) :
    c ∈ ps ∨ c ∈ taken := by
  induction ps generalizing taken with
  | nil => exact .inr h
  | cons p ps ih =>
      rcases ih h with h | h
      · exact .inl (List.mem_cons_of_mem p h)
      · unfold push at h
        split at h
        · exact .inr h
        · split at h
          · exact .inr (List.mem_of_mem_tail h)
          · rcases List.mem_cons.mp h with rfl | h
            · exact .inl List.mem_cons_self
            · exact .inr h

theorem mem_resolve {ps : List (List Char)} {c : List Char} (h : c ∈ resolve ps) : c ∈ ps :=
  (mem_foldl_push (List.mem_reverse.mp h)).resolve_right List.not_mem_nil

/-- The components of a normal form are what those of the path lead to. -/
theorem components_normalize (cwd path : String) :
    components (normalize cwd path).toList = resolve (components (join cwd.toList path.toList)) := by
  rw [normalize, String.toList_ofList, components_rootSlashes, resolve_pieces]
  exact components_unite fun c hc => plain_of_mem_components (mem_resolve hc)

theorem resolve_concat_up (ps : List (List Char)) : resolve (ps ++ [['.', '.']]) = (resolve ps).dropLast := by
  simp [resolve, push]

theorem resolve_concat {c : List Char} (ps : List (List Char)) (hc : Plain c) (hup : c ≠ ['.', '.']) :
    resolve (ps ++ [c]) = resolve ps ++ [c] := by
  simp [resolve, push, hc.1, hc.2.1, hup]

/-! ## Tidy paths -/

theorem isAbsolute_unite {cs : List (List Char)} (h : ∀ c ∈ cs, Plain c) : isAbsolute (unite cs) = false := by
  cases cs with
  | nil => rfl
  | cons c cs =>
      obtain ⟨hne, -, hslash⟩ := h c List.mem_cons_self
      cases c with
      | nil => exact absurd rfl hne
      | cons d c =>
          have hd : d ≠ '/' := fun hd => hslash (hd ▸ List.mem_cons_self)
          cases cs <;> simp [unite, isAbsolute, List.intercalate, hd]

namespace Tidy

/-- The root is made of slashes, and each part stands between slashes. -/
structure Clean (t : Tidy) : Prop where
  root : ∃ path, t.root = rootSlashes path
  parts : ∀ c ∈ t.parts, Plain c

theorem clean_ofString (path : String) : (ofString path).Clean :=
  ⟨⟨path.toList, rfl⟩, fun _ => plain_of_mem_components⟩

theorem Clean.join {t : Tidy} (h : t.Clean) (path : String) : (t.join path).Clean := by
  unfold Tidy.join
  dsimp only
  split
  · refine ⟨h.root, fun c hc => ?_⟩
    rcases List.mem_append.mp hc with hc | hc
    · exact h.parts c hc
    · exact plain_of_mem_components hc
  · exact clean_ofString path

theorem Clean.components_text {t : Tidy} (h : t.Clean) : components t.text.toList = t.parts := by
  obtain ⟨path, hroot⟩ := h.root
  unfold text
  split
  · next he => rw [he.2]; rfl
  · rw [String.toList_ofList, hroot, components_rootSlashes, components_unite h.parts]

theorem Clean.isAbsolute_text {t : Tidy} (h : t.Clean) : isAbsolute t.text.toList = !t.root.isEmpty := by
  obtain ⟨path, hroot⟩ := h.root
  unfold text
  split
  · next he => rw [he.1]; rfl
  · rw [String.toList_ofList]
    rcases rootSlashes_cases path with hr | hr | hr <;> rw [hroot, hr]
    · exact isAbsolute_unite h.parts
    · rfl
    · rfl

theorem Clean.components_normalize {t : Tidy} (h : t.Clean) (cwd : String) :
    components (normalize cwd t.text).toList =
      resolve ((if t.root.isEmpty then components cwd.toList else []) ++ t.parts) := by
  rw [Path.components_normalize, components_join, h.isAbsolute_text, h.components_text]
  cases t.root.isEmpty <;> rfl

end Tidy

/-! ## Containment -/

/-- A path has the components of a folder in front of its own, and more. -/
def Below (path folder : String) : Prop :=
  components folder.toList <+: components path.toList ∧ components folder.toList ≠ components path.toList

instance (path folder : String) : Decidable (Below path folder) := inferInstanceAs (Decidable (_ ∧ _))

theorem commonStart_prefix_left {α : Type} [DecidableEq α] (as bs : List α) : commonStart as bs <+: as := by
  fun_induction commonStart as bs with
  | case1 as b bs ih => exact List.cons_prefix_cons.mpr ⟨rfl, ih⟩
  | case2 => exact List.nil_prefix
  | case3 => exact List.nil_prefix

theorem components_prefix_of_isWithin {path root : String} (h : isWithin path root = true) :
    components root.toList <+: components path.toList := by
  have hcommon := commonStart_prefix_left (components path.toList) (components root.toList)
  simp only [isWithin, Bool.and_eq_true, beq_iff_eq] at h
  generalize commonStart (components path.toList) (components root.toList) = common at h hcommon
  have hplain : ∀ c ∈ common, Plain c := fun c hc => plain_of_mem_components (hcommon.subset hc)
  have hroot : components root.toList = common := calc
    components root.toList = components ((if isAbsolute root.toList then ['/'] else []) ++ unite common) := by
      rw [h.2]
    _ = components (unite common) := by
      split
      · exact components_slash _
      · rfl
    _ = common := components_unite hplain
  rw [hroot]
  exact hcommon

end Backmap.Path
