import Backmap.Proofs.Path
import Backmap.Settings

/-!
# The cache folder

The overlay document is looked for in the cache folder of a module, which is found by following `cacheDir` as a path.
Sources are told from generated files by another rule: no component of their path may be `cacheDir` as it is written.
The two rules agree as long as `cacheDir` is written without slashes.
-/

namespace Backmap

namespace Settings

/-- Where the generated files of a module are kept, in normal form. -/
def cacheFolder (s : Settings) (cwd module : String) : String :=
  Path.normalize cwd ((Path.Tidy.ofString module).join s.cacheDir).text

variable {s : Settings} {cwd module path : String}

open Backmap.Path

theorem isSource_iff : s.isSource path = true ↔
    (∃ suffix ∈ s.sourceSuffixes, suffix.toList <:+ path.toList) ∧
      s.cacheDir ∉ (Tidy.ofString path).steps := by
  simp [isSource, List.isSuffixOf_iff_suffix]

theorem mem_steps_of_mem_components {name : String} (h : name.toList ∈ components path.toList) :
    name ∈ (Tidy.ofString path).steps := by
  refine List.mem_map.mpr ⟨name.toList, List.mem_append_right _ h, ?_⟩
  exact String.ofList_toList

theorem root_of_mem_steps {name : String} (h : name ∈ (Tidy.ofString path).steps) (hslash : '/' ∈ name.toList) :
    name.toList = ['/'] ∨ name.toList = ['/', '/'] := by
  obtain ⟨step, hstep, rfl⟩ := List.mem_map.mp h
  rw [String.toList_ofList] at hslash ⊢
  rcases List.mem_append.mp hstep with hstep | hstep
  · split at hstep
    · cases hstep
    · next hroot =>
      rw [List.mem_singleton.mp hstep] at hslash ⊢
      exact (rootSlashes_cases path.toList).resolve_left hroot
  · exact absurd hslash (plain_of_mem_components hstep).2.2

theorem join_of_notMem (h : '/' ∉ s.cacheDir.toList) (t : Tidy) :
    t.join s.cacheDir = ⟨t.root, t.parts ++ components s.cacheDir.toList⟩ := by
  have hroot : rootSlashes s.cacheDir.toList = [] := by
    refine rootSlashes_eq_nil.mpr (beq_eq_false_iff_ne.mpr fun hhead => h ?_)
    exact List.mem_of_mem_head? hhead
  exact if_pos hroot

theorem mem_components_cacheFolder (hslash : '/' ∉ s.cacheDir.toList)
    (hbelow : Below (s.cacheFolder cwd module) (normalize cwd (Tidy.ofString module).text)) :
    s.cacheDir.toList ∈ components (s.cacheFolder cwd module).toList := by
  have hclean := Tidy.clean_ofString module
  obtain ⟨hpre, hne⟩ := hbelow
  rw [cacheFolder, (hclean.join s.cacheDir).components_normalize, join_of_notMem hslash] at hpre hne ⊢
  rw [hclean.components_normalize] at hpre hne
  dsimp only at hpre hne ⊢
  rw [← List.append_assoc] at hpre hne ⊢
  generalize (if (Tidy.ofString module).root.isEmpty then components cwd.toList else []) ++
    (Tidy.ofString module).parts = way at hpre hne ⊢
  rw [components_of_notMem hslash] at hpre hne ⊢
  split at hpre
  · next hc =>
    -- the folder would be that of the module itself
    rw [if_pos hc, List.append_nil] at hne
    exact absurd rfl hne
  · next hc =>
    rw [if_neg hc] at hne ⊢
    by_cases hup : s.cacheDir.toList = ['.', '.']
    · -- the folder would be the one that the module is in
      rw [hup, resolve_concat_up] at hpre hne
      exact absurd (hpre.eq_of_length_le (by simp)) hne
    · rw [not_or] at hc
      rw [resolve_concat way ⟨hc.1, hc.2, hslash⟩ hup]
      exact List.mem_append_right _ List.mem_cons_self

theorem not_below_of_root (hroot : s.cacheDir.toList = ['/'] ∨ s.cacheDir.toList = ['/', '/']) (folder : String) :
    ¬ Below (s.cacheFolder cwd module) folder := by
  rintro ⟨hpre, hne⟩
  have hjoin : (Tidy.ofString module).join s.cacheDir = Tidy.ofString s.cacheDir := by
    refine if_neg fun he => ?_
    rcases hroot with h | h <;> rw [Tidy.ofString, h] at he <;> cases he
  have hnil : components (s.cacheFolder cwd module).toList = [] := by
    rw [cacheFolder, hjoin, (Tidy.clean_ofString s.cacheDir).components_normalize, Tidy.ofString]
    rcases hroot with h | h <;> rw [h] <;> rfl
  rw [hnil] at hpre hne
  exact hne (List.prefix_nil.mp hpre)

end Settings

open Backmap.Path

/-- Where the cache folder lies below its module, a path below the cache folder is that of a source exactly if it has a
suffix of one and `cacheDir` is written with a slash. So a name by itself keeps all generated files apart from the
sources, and a name of several components or with a slash at its end keeps none. -/
theorem Settings.isSource_below_cacheFolder (s : Settings) (cwd module path : String)
    (hbelow : Below (s.cacheFolder cwd module) (normalize cwd (Tidy.ofString module).text))
    (hpath : Below path (s.cacheFolder cwd module)) :
    s.isSource path = true ↔
      '/' ∈ s.cacheDir.toList ∧ ∃ suffix ∈ s.sourceSuffixes, suffix.toList <:+ path.toList := by
  rw [isSource_iff]
  by_cases hslash : '/' ∈ s.cacheDir.toList
  · have hsteps : s.cacheDir ∉ (Tidy.ofString path).steps := fun h =>
      not_below_of_root (root_of_mem_steps h hslash) _ hbelow
    simp [hslash, hsteps]
  · have hmem : s.cacheDir.toList ∈ components path.toList :=
      hpath.1.subset (mem_components_cacheFolder hslash hbelow)
    simp [hslash, mem_steps_of_mem_components hmem]

/-- The default name, seen from a module that is named by a relative path. -/
theorem Settings.isSource_below_cacheFolder_default :
    Below (({} : Settings).cacheFolder "/w" "../w/m/") (normalize "/w" (Tidy.ofString "../w/m/").text) ∧
    Below "/w/m/.inco_cache/d/a.go" (({} : Settings).cacheFolder "/w" "../w/m/") ∧
    (({} : Settings).isSource "/w/m/.inco_cache/d/a.go" = true ↔
      '/' ∈ ({} : Settings).cacheDir.toList ∧
        ∃ suffix ∈ ({} : Settings).sourceSuffixes, suffix.toList <:+ "/w/m/.inco_cache/d/a.go".toList) := by
  have hbelow : Below (({} : Settings).cacheFolder "/w" "../w/m/") (normalize "/w" (Tidy.ofString "../w/m/").text) := by
    decide
  have hpath : Below "/w/m/.inco_cache/d/a.go" (({} : Settings).cacheFolder "/w" "../w/m/") := by decide
  exact ⟨hbelow, hpath, isSource_below_cacheFolder {} _ _ _ hbelow hpath⟩

/-- With a slash behind the name of the cache folder, the generated files in it count as sources. -/
theorem Settings.isSource_generated :
    let s : Settings := { cacheDir := ".inco_cache/" }
    Below (s.cacheFolder "/tmp/ws" "/tmp/ws") (normalize "/tmp/ws" (Tidy.ofString "/tmp/ws").text) ∧
    Below "/tmp/ws/.inco_cache/a.go" (s.cacheFolder "/tmp/ws" "/tmp/ws") ∧
    s.isSource "/tmp/ws/.inco_cache/a.go" = true := by
  decide

end Backmap
