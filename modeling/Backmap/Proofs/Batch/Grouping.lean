import Backmap.Batch
import Mathlib.Data.List.Induction
import Mathlib.Data.List.Perm.Basic

/-!
# Groups as a function of what they hold

A batch adds diagnostics to its groups one at a time. What comes of that is stated here of the whole list of
diagnostics: the files in the order in which they first occur, each with its diagnostics in their order.
-/

namespace Backmap

/-! ## First occurrences -/

section Firsts

variable {α κ : Type} [DecidableEq κ] (key : α → κ) (as : List α)

/-- The elements of a list whose key has not occurred before them. -/
def firsts (key : α → κ) : List α → List α
  | [] => []
  | a :: as => a :: (firsts key as).filter fun b => key b ≠ key a

theorem firsts_sublist : (firsts key as).Sublist as := by
  induction as with
  | nil => exact .slnil
  | cons a as ih => exact (List.filter_sublist.trans ih).cons_cons a

theorem mem_map_firsts (k : κ) : k ∈ (firsts key as).map key ↔ k ∈ as.map key := by
  induction as with
  | nil => rfl
  | cons a as ih =>
      by_cases hk : k = key a
      · simp [firsts, hk]
      · rw [List.map_cons, List.mem_cons, ← ih]
        simp only [firsts, List.map_cons, List.mem_cons, hk, false_or, List.mem_map, List.mem_filter,
          decide_eq_true_eq]
        constructor
        · rintro ⟨b, ⟨hb, _⟩, rfl⟩
          exact ⟨b, hb, rfl⟩
        · rintro ⟨b, hb, rfl⟩
          exact ⟨b, ⟨hb, hk⟩, rfl⟩

/-- Nothing is lost that goes by the key. -/
theorem mem_map_firsts_of {β : Type} {g : α → β} (hg : ∀ a b, key a = key b → g a = g b) (x : β) :
    x ∈ (firsts key as).map g ↔ x ∈ as.map g := by
  constructor
  · exact fun h => ((firsts_sublist key as).map g).subset h
  · intro h
    obtain ⟨a, ha, rfl⟩ := List.mem_map.mp h
    obtain ⟨b, hb, hk⟩ := List.mem_map.mp ((mem_map_firsts key as (key a)).mpr (List.mem_map_of_mem ha))
    exact List.mem_map.mpr ⟨b, hb, hg b a hk⟩

theorem nodup_map_firsts : ((firsts key as).map key).Nodup := by
  induction as with
  | nil => exact List.nodup_nil
  | cons a as ih =>
      rw [firsts, List.map_cons, List.nodup_cons]
      refine ⟨?_, ih.sublist (List.filter_sublist.map key)⟩
      rintro h
      obtain ⟨b, hb, he⟩ := List.mem_map.mp h
      simp [he] at hb

theorem firsts_concat (a : α) :
    firsts key (as ++ [a]) = if key a ∈ as.map key then firsts key as else firsts key as ++ [a] := by
  induction as with
  | nil => simp [firsts]
  | cons b as ih =>
      rw [List.cons_append, firsts, ih, firsts]
      by_cases hab : key a = key b
      · -- the new element goes with the filter, whether or not its key comes again in `as`
        split <;> simp [hab]
      · by_cases ha : key a ∈ as.map key
        · simp [ha]
        · rw [if_neg ha, if_neg (by simp only [List.map_cons, List.mem_cons, hab, ha, or_self,
            not_false_eq_true])]
          simp [hab]

/-- Of what goes by the key, the first occurrences are those of a list and of its first occurrences. -/
theorem firsts_map_firsts {β : Type} [DecidableEq β] {g : α → β} (hg : ∀ a b, key a = key b → g a = g b) :
    firsts id ((firsts key as).map g) = firsts id (as.map g) := by
  induction as using List.reverseRecOn with
  | nil => rfl
  | append_singleton as a ih =>
      have hmem := mem_map_firsts_of key as hg (g a)
      rw [firsts_concat, List.map_append, List.map_singleton, firsts_concat, List.map_id, id_eq]
      by_cases hk : key a ∈ as.map key
      · obtain ⟨b, hb, hkey⟩ := List.mem_map.mp hk
        rw [if_pos hk, ih, if_pos (hg b a hkey ▸ List.mem_map_of_mem hb)]
      · rw [if_neg hk, List.map_append, List.map_singleton, firsts_concat, List.map_id, id_eq, ih]
        simp only [hmem]

/-- A choice that goes by the key can be made before or after. -/
theorem filter_firsts {p : α → Bool} (hp : ∀ a b, key a = key b → p a = p b) :
    (firsts key as).filter p = firsts key (as.filter p) := by
  induction as with
  | nil => rfl
  | cons a as ih =>
      rw [firsts]
      cases ha : p a with
      | true => rw [List.filter_cons_of_pos ha, List.filter_cons_of_pos ha, firsts, ← ih, List.filter_comm]
      | false =>
          have hne : ∀ b ∈ (firsts key as).filter p, decide (key b ≠ key a) = true := by
            intro b hb
            refine decide_eq_true fun hk => ?_
            rw [← hp b a hk, (List.mem_filter.mp hb).2] at ha
            cases ha
          rw [List.filter_cons_of_neg (by simp [ha]), List.filter_cons_of_neg (by simp [ha]), List.filter_comm,
            List.filter_eq_self.mpr hne, ih]

theorem length_firsts_le : (firsts key as).length ≤ as.length := (firsts_sublist key as).length_le

end Firsts

/-! ## Groups -/

/-- What tells the diagnostics of a batch apart. -/
def Diagnostic.key (d : Diagnostic) : String × Int × String := (d.file, d.line, d.message)

namespace Groups

/-- Diagnostics by file: the files as they first occur, each with its diagnostics in their order. -/
def ofList (ds : List Diagnostic) : Groups :=
  (firsts id (ds.map (·.file))).map fun file => (file, ds.filter (·.file = file))

variable {ds : List Diagnostic} {d : Diagnostic}

theorem files_ofList (ds : List Diagnostic) : (ofList ds).map (·.1) = firsts id (ds.map (·.file)) := by
  simp [ofList, Function.comp_def]

theorem mem_files {file : String} : file ∈ (ofList ds).map (·.1) ↔ ∃ d ∈ ds, d.file = file := by
  have h := mem_map_firsts id (ds.map (·.file)) file
  rw [files_ofList]
  simpa using h

theorem nodup_files : ((ofList ds).map (·.1)).Nodup := by
  have h := nodup_map_firsts id (ds.map (·.file))
  rw [files_ofList]
  simpa using h

theorem mem_ofList {file : String} {es : List Diagnostic} (h : (file, es) ∈ ofList ds) :
    es = ds.filter (·.file = file) ∧ es ≠ [] := by
  have hfile : file ∈ (ofList ds).map (·.1) := List.mem_map_of_mem h
  obtain ⟨name, -, he⟩ := List.mem_map.mp h
  obtain ⟨rfl, rfl⟩ := Prod.mk.inj he
  obtain ⟨d, hd, rfl⟩ := mem_files.mp hfile
  exact ⟨rfl, List.ne_nil_of_mem (List.mem_filter.mpr ⟨hd, by simp⟩)⟩

theorem mem_diagnostics : d ∈ (ofList ds).diagnostics ↔ d ∈ ds := by
  constructor
  · intro h
    obtain ⟨⟨file, es⟩, hg, hd⟩ := List.mem_flatMap.mp h
    obtain ⟨rfl, -⟩ := mem_ofList hg
    exact (List.mem_filter.mp hd).1
  · intro h
    obtain ⟨⟨file, es⟩, hg, rfl⟩ := List.mem_map.mp (mem_files.mpr ⟨d, h, rfl⟩)
    obtain ⟨rfl, -⟩ := mem_ofList hg
    exact List.mem_flatMap.mpr ⟨_, hg, List.mem_filter.mpr ⟨h, by simp⟩⟩

theorem filter_diagnostics (ds : List Diagnostic) (file : String) :
    (ofList ds).diagnostics.filter (·.file = file) = ds.filter (·.file = file) := by
  have hgroups : ∀ names : List String, names.Nodup →
      (names.flatMap fun name => (ds.filter (·.file = name)).filter (·.file = file)) =
        if file ∈ names then ds.filter (·.file = file) else [] := by
    intro names hn
    induction names with
    | nil => rfl
    | cons name names ih =>
        obtain ⟨hname, hn⟩ := List.nodup_cons.mp hn
        rw [List.flatMap_cons, ih hn]
        by_cases h : name = file
        · subst h
          simp [hname]
        · have hnone : (ds.filter (·.file = name)).filter (·.file = file) = [] := by
            rw [List.filter_filter, List.filter_eq_nil_iff]
            simp only [Bool.and_eq_true, decide_eq_true_eq]
            rintro d - ⟨hd, hd'⟩
            exact h (hd'.symm.trans hd)
          simp [hnone, Ne.symm h]
  have hnodup : (firsts id (ds.map (·.file))).Nodup := files_ofList ds ▸ nodup_files
  rw [diagnostics, ofList, List.flatMap_map, List.filter_flatMap, hgroups _ hnodup, ← files_ofList]
  split
  · rfl
  · next h => 
    refine (List.filter_eq_nil_iff.mpr fun d hd => ?_).symm
    simp only [decide_eq_true_eq]
    exact fun he => h (mem_files.mpr ⟨d, hd, he⟩)

theorem has_ofList : (ofList ds).has d = true ↔ d.key ∈ ds.map Diagnostic.key := by
  have h : (ofList ds).has d = true ↔ ∃ e ∈ (ofList ds).diagnostics, e.key = d.key := by
    simp only [has, diagnostics, List.any_eq_true, List.mem_flatMap, Diagnostic.key, Prod.mk.injEq,
      Bool.and_eq_true, beq_iff_eq]
    constructor
    · rintro ⟨g, hg, e, he, ⟨h₁, h₂⟩, h₃⟩
      exact ⟨e, ⟨g, hg, he⟩, h₁, h₂, h₃⟩
    · rintro ⟨e, ⟨g, hg, he⟩, h₁, h₂, h₃⟩
      exact ⟨g, hg, e, he, ⟨h₁, h₂⟩, h₃⟩
  rw [h, List.mem_map]
  simp only [mem_diagnostics]

/-- A file that has a group gets one more diagnostic in it; one that has none gets a group in the last place. -/
theorem add_map {files : List String} (hn : files.Nodup) (group : String → List Diagnostic) :
    add d (files.map fun file => (file, group file)) =
      if d.file ∈ files then
        files.map fun file => (file, if file = d.file then group file ++ [d] else group file)
      else files.map (fun file => (file, group file)) ++ [(d.file, [d])] := by
  induction files with
  | nil => rfl
  | cons file files ih =>
      obtain ⟨hfile, hn⟩ := List.nodup_cons.mp hn
      rw [List.map_cons, add]
      by_cases h : file = d.file
      · subst h
        have hrest : ∀ name ∈ files, name ≠ d.file := fun name hm he => hfile (he ▸ hm)
        rw [if_pos rfl, if_pos List.mem_cons_self, List.map_cons, if_pos rfl]
        refine congrArg _ (List.map_congr_left fun name hm => ?_)
        rw [if_neg (hrest name hm)]
      · rw [if_neg h, ih hn]
        by_cases hd : d.file ∈ files
        · simp [hd, h]
        · simp [hd, Ne.symm h]

theorem filter_concat_self : (ds ++ [d]).filter (·.file = d.file) = ds.filter (·.file = d.file) ++ [d] := by
  simp

theorem filter_concat_ne {file : String} (h : file ≠ d.file) :
    (ds ++ [d]).filter (·.file = file) = ds.filter (·.file = file) := by
  simp [Ne.symm h]

theorem add_ofList : add d (ofList ds) = ofList (ds ++ [d]) := by
  have hmem : d.file ∈ firsts id (ds.map (·.file)) ↔ d.file ∈ (ds.map (·.file)) := by
    simpa using mem_map_firsts id (ds.map (·.file)) d.file
  have hn : (firsts id (ds.map (·.file))).Nodup := by
    simpa using nodup_map_firsts id (ds.map (·.file))
  rw [ofList, add_map hn, ofList, List.map_append, List.map_singleton, firsts_concat, List.map_id, id_eq]
  by_cases hd : d.file ∈ ds.map (·.file)
  · rw [if_pos (hmem.mpr hd), if_pos hd]
    refine List.map_congr_left fun file _ => ?_
    split
    · next h => rw [h, filter_concat_self]
    · next h => rw [filter_concat_ne h]
  · have hnone : ds.filter (·.file = d.file) = [] := by
      refine List.filter_eq_nil_iff.mpr fun e he => ?_
      simp only [decide_eq_true_eq]
      exact fun h => hd (h ▸ List.mem_map_of_mem he)
    rw [if_neg (mt hmem.mp hd), if_neg hd, List.map_append, List.map_singleton, filter_concat_self, hnone,
      List.nil_append]
    refine congrArg (· ++ _) (List.map_congr_left fun file hfile => ?_)
    rw [filter_concat_ne fun h => hd (hmem.mp (h ▸ hfile))]

theorem diagnostics_add (g : Groups) : (add d g).diagnostics.Perm (g.diagnostics ++ [d]) := by
  induction g with
  | nil => exact .refl _
  | cons group g ih =>
      obtain ⟨file, es⟩ := group
      simp only [add]
      split
      · simp only [diagnostics, List.flatMap_cons, List.append_assoc]
        exact List.perm_append_comm.append_left es
      · simp only [diagnostics, List.flatMap_cons, List.append_assoc]
        exact ih.append_left es

theorem diagnostics_ofList (ds : List Diagnostic) : (ofList ds).diagnostics.Perm ds := by
  induction ds using List.reverseRecOn with
  | nil => exact .refl _
  | append_singleton ds d ih =>
      rw [← add_ofList]
      exact (diagnostics_add _).trans (ih.append_right [d])

end Groups

end Backmap
