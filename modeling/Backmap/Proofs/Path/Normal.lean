import Backmap.Proofs.Path
import Mathlib.Data.List.Induction

/-!
# Normal forms of paths

What normalizing leaves is told by its shape: slashes in front, and behind them components that stand for themselves.
A path of that shape is its own normal form, and containment in one goes by the components, but for the slashes in
front.
-/

namespace Backmap.Path

/-- An absolute path with no way up in it, and with nothing in its text but the slashes in front and its components. -/
structure Normal (path : String) : Prop where
  absolute : isAbsolute path.toList = true
  ahead : ['.', '.'] ∉ components path.toList
  text : path.toList = rootSlashes path.toList ++ unite (components path.toList)

variable {path root cwd : String}

/-! ## Normalizing -/

theorem up_notMem_foldl_push {ps taken : List (List Char)} (h : ['.', '.'] ∉ taken) :
    ['.', '.'] ∉ ps.foldl push taken := by
  induction ps generalizing taken with
  | nil => exact h
  | cons p ps ih =>
      refine ih ?_
      unfold push
      split
      · exact h
      · split
        · exact fun hup => h (List.mem_of_mem_tail hup)
        · next hp => exact List.not_mem_cons_of_ne_of_not_mem (Ne.symm hp) h

theorem up_notMem_resolve (ps : List (List Char)) : ['.', '.'] ∉ resolve ps := fun h =>
  up_notMem_foldl_push List.not_mem_nil (List.mem_reverse.mp h)

theorem isAbsolute_append {front : List Char} (h : isAbsolute front = true) (back : List Char) :
    isAbsolute (front ++ back) = true := by
  cases front with
  | nil => cases h
  | cons c front => exact h

theorem isAbsolute_join {base : List Char} (h : isAbsolute base = true) (path : List Char) :
    isAbsolute (join base path) = true := by
  unfold join
  split
  · assumption
  · split
    · exact isAbsolute_append h path
    · exact isAbsolute_append h _

theorem rootSlashes_append_unite (path : List Char) {cs : List (List Char)} (h : ∀ c ∈ cs, Plain c) :
    rootSlashes (rootSlashes path ++ unite cs) = rootSlashes path := by
  have hunite := isAbsolute_unite h
  generalize unite cs = rest at hunite
  rcases rootSlashes_cases path with hroot | hroot | hroot <;> rw [hroot]
  · exact rootSlashes_eq_nil.mpr hunite
  all_goals
    cases rest with
    | nil => rfl
    | cons c rest =>
        have hc : c ≠ '/' := by
          rintro rfl
          cases hunite
        simp [rootSlashes, hc]

theorem normal_normalize (hcwd : isAbsolute cwd.toList = true) (path : String) : Normal (normalize cwd path) := by
  have hfull : isAbsolute (join cwd.toList path.toList) = true := isAbsolute_join hcwd path.toList
  have hcomponents := components_normalize cwd path
  have htext : (normalize cwd path).toList = rootSlashes (join cwd.toList path.toList) ++
      unite (components (normalize cwd path).toList) := by
    rw [hcomponents, normalize, String.toList_ofList, resolve_pieces]
  have hroot : rootSlashes (normalize cwd path).toList = rootSlashes (join cwd.toList path.toList) := by
    rw [htext]
    exact rootSlashes_append_unite _ fun c => plain_of_mem_components
  refine ⟨?_, hcomponents ▸ up_notMem_resolve _, hroot ▸ htext⟩
  cases habsolute : isAbsolute (normalize cwd path).toList with
  | true => rfl
  | false =>
      rw [← rootSlashes_eq_nil, hroot, rootSlashes_eq_nil, hfull] at habsolute
      cases habsolute

theorem resolve_eq_self {cs : List (List Char)} (hplain : ∀ c ∈ cs, Plain c) (hahead : ['.', '.'] ∉ cs) :
    resolve cs = cs := by
  induction cs using List.reverseRecOn with
  | nil => rfl
  | append_singleton cs c ih =>
      obtain ⟨hcs, hc⟩ := List.forall_mem_append.mp hplain
      rw [List.mem_append, List.mem_singleton, not_or] at hahead
      rw [resolve_concat cs (hc c List.mem_cons_self) (Ne.symm hahead.2), ih hcs hahead.1]

theorem Normal.normalize_eq (h : Normal path) (cwd : String) : normalize cwd path = path := by
  have hjoin : join cwd.toList path.toList = path.toList := if_pos h.absolute
  rw [normalize, hjoin, resolve_pieces, resolve_eq_self (fun c => plain_of_mem_components) h.ahead, ← h.text,
    String.ofList_toList]

/-! ## Containment -/

theorem commonStart_eq_right {α : Type} [DecidableEq α] {as bs : List α} : commonStart as bs = bs ↔ bs <+: as := by
  constructor
  · intro h
    exact h ▸ commonStart_prefix_left as bs
  · rintro ⟨rest, rfl⟩
    induction bs with
    | nil => cases rest <;> rfl
    | cons b bs ih => rw [List.cons_append, commonStart, if_pos rfl, ih]

/-- Of normal paths, one lies within another if it has the components of that in front of its own, and if that begins
with one slash only: what the two have in common is always written with one. -/
theorem Normal.isWithin_iff (hpath : Normal path) (hroot : Normal root) : isWithin path root = true ↔
    components root.toList <+: components path.toList ∧ rootSlashes root.toList = ['/'] := by
  have hcommon := commonStart_prefix_left (components path.toList) (components root.toList)
  have hplain : ∀ c ∈ commonStart (components path.toList) (components root.toList), Plain c := fun c hc =>
    plain_of_mem_components (hcommon.subset hc)
  rw [isWithin, hpath.absolute, hroot.absolute, ← commonStart_eq_right]
  generalize commonStart (components path.toList) (components root.toList) = common at hplain ⊢
  simp only [beq_self_eq_true, Bool.true_and, if_true, beq_iff_eq, List.singleton_append]
  constructor
  · intro h
    rw [← h, components_slash, components_unite hplain]
    exact ⟨rfl, rootSlashes_append_unite ['/'] hplain⟩
  · rintro ⟨rfl, hslash⟩
    have htext := hroot.text
    rw [hslash] at htext
    exact htext.symm

end Backmap.Path
