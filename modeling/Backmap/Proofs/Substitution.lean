import Backmap.Proofs.Batch.Grouping
import Backmap.Proofs.Path.Normal

/-!
# Substitution tables and their reversal

A table takes its entries one by one, and an entry for a source that it knows replaces the shadow in its place. Read
backwards, the first source of a shadow counts. Both are stated here of the whole list of entries, and each shadow leads
to a source that leads back to it.
-/

namespace Backmap

variable {α κ : Type}

/-! ## First occurrences -/

section Firsts

variable [DecidableEq κ] {key : α → κ}

theorem head?_firsts (as : List α) : (firsts key as).head? = as.head? := by
  cases as <;> rfl

/-- A search that goes by the key finds a first occurrence. -/
theorem find?_firsts {p : α → Bool} (hp : ∀ a b, key a = key b → p a = p b) (as : List α) :
    (firsts key as).find? p = as.find? p := by
  rw [← List.head?_filter, ← List.head?_filter, filter_firsts key as hp, head?_firsts]

theorem map_firsts (as : List α) : (firsts key as).map key = firsts id (as.map key) := by
  induction as with
  | nil => rfl
  | cons a as ih =>
      rw [firsts, List.map_cons, List.map_cons, firsts, ← ih, List.filter_map]
      rfl

end Firsts

/-! ## Setting a value -/

namespace Json

variable {key : String} {value : α} {pairs : List (String × α)}

theorem keys_insert : (insert key value pairs).map (·.1) =
    if key ∈ pairs.map (·.1) then pairs.map (·.1) else pairs.map (·.1) ++ [key] := by
  induction pairs with
  | nil => rfl
  | cons pair pairs ih =>
      rw [insert]
      by_cases hk : pair.1 = key
      · simp [hk]
      · rw [if_neg hk, List.map_cons, List.map_cons, ih]
        by_cases hkey : key ∈ pairs.map (·.1)
        · rw [if_pos hkey, if_pos (List.mem_cons_of_mem _ hkey)]
        · rw [if_neg hkey, if_neg (List.not_mem_cons_of_ne_of_not_mem (Ne.symm hk) hkey), List.cons_append]

theorem find?_insert (name : String) : ((insert key value pairs).find? (·.1 == name)).map (·.2) =
    if key = name then some value else (pairs.find? (·.1 == name)).map (·.2) := by
  induction pairs with
  | nil => by_cases h : key = name <;> simp [insert, h]
  | cons pair pairs ih =>
      rw [insert]
      by_cases hk : pair.1 = key
      · by_cases hname : key = name <;> simp [hk, hname]
      · rw [if_neg hk]
        by_cases hname : pair.1 = name
        · have hne : ¬ key = name := fun h => hk (hname.trans h.symm)
          simp [hname, hne]
        · simpa [hname] using ih

end Json

namespace Substitution

variable {cwd : String} {entries : List (String × String)}

/-! ## Taking entries -/

theorem pairs_concat (cwd : String) (entries : List (String × String)) (e : String × String) :
    (ofEntries cwd (entries ++ [e])).pairs =
      Json.insert (Path.normalize cwd e.1) (Path.normalize cwd e.2) (ofEntries cwd entries).pairs := by
  simp [ofEntries]

theorem sources_ofEntries (cwd : String) (entries : List (String × String)) :
    (ofEntries cwd entries).sources = firsts id (entries.map fun e => Path.normalize cwd e.1) := by
  induction entries using List.reverseRecOn with
  | nil => rfl
  | append_singleton entries e ih =>
      have hmem := mem_map_firsts id (entries.map fun e => Path.normalize cwd e.1) (Path.normalize cwd e.1)
      rw [List.map_id, List.map_id, ← ih] at hmem
      rw [sources, pairs_concat, Json.keys_insert, List.map_append, List.map_singleton, firsts_concat, List.map_id,
        id_eq, ← ih]
      simp only [← hmem]
      rfl

theorem shadow?_ofEntries (cwd : String) (entries : List (String × String)) (source : String) :
    (ofEntries cwd entries).shadow? cwd source =
      (entries.reverse.find? fun e => Path.normalize cwd e.1 == Path.normalize cwd source).map
        fun e => Path.normalize cwd e.2 := by
  induction entries using List.reverseRecOn with
  | nil => rfl
  | append_singleton entries e ih =>
      rw [shadow?, pairs_concat, Json.find?_insert, List.reverse_append, List.reverse_singleton, List.singleton_append]
      rw [shadow?] at ih
      by_cases hsource : Path.normalize cwd e.1 = Path.normalize cwd source
      · simp [hsource]
      · rw [if_neg hsource, ih, List.find?_cons_of_neg (by simpa using hsource)]

theorem nodup_sources_ofEntries (cwd : String) (entries : List (String × String)) :
    (ofEntries cwd entries).sources.Nodup := by
  rw [sources_ofEntries]
  simpa using nodup_map_firsts id (entries.map fun e => Path.normalize cwd e.1)

theorem normal_of_mem_sources (hcwd : Path.isAbsolute cwd.toList = true) {source : String}
    (h : source ∈ (ofEntries cwd entries).sources) : Path.Normal source := by
  rw [sources_ofEntries] at h
  obtain ⟨e, -, rfl⟩ := List.mem_map.mp ((firsts_sublist _ _).subset h)
  exact Path.normal_normalize hcwd e.1

/-! ## Reading backwards -/

theorem sourceOf?_eq_none {found : List (String × String)} {shadow : String} :
    sourceOf? found shadow = none ↔ shadow ∉ found.map (·.1) := by
  rw [sourceOf?, Option.map_eq_none_iff, List.find?_eq_none]
  simp only [beq_iff_eq, List.mem_map, not_exists, not_and]

/-- Behind those found before, the pairs that come first with their shadow are turned round. -/
theorem reverseFrom_fst (found pairs : List (String × String)) :
    (reverseFrom found pairs).1 =
      found ++ (firsts (·.2) (pairs.filter fun pair => pair.2 ∉ found.map (·.1))).map Prod.swap := by
  fun_induction reverseFrom found pairs with
  | case1 found => exact (List.append_nil found).symm
  | case2 found source shadow rest kept hkept reversed clashes hrest ih =>
      have hmem : shadow ∈ found.map (·.1) := by
        by_contra hno
        rw [sourceOf?_eq_none.mpr hno] at hkept
        cases hkept
      rw [hrest] at ih
      rw [List.filter_cons_of_neg (by simpa using hmem)]
      exact ih
  | case3 found source shadow rest hnone ih =>
      have hmem := sourceOf?_eq_none.mp hnone
      have hkey : ∀ a b : String × String, a.2 = b.2 → decide (a.2 ≠ shadow) = decide (b.2 ≠ shadow) := by
        intro a b hab
        rw [hab]
      -- what follows must not bring the shadow again, whether it was found before or just now
      rw [ih, List.filter_cons_of_pos (by simpa using hmem), firsts, filter_firsts _ _ hkey, List.filter_filter,
        List.map_cons, List.append_assoc]
      simp only [List.map_append, List.map_cons, List.map_nil, List.mem_append, List.mem_singleton, not_or]
      simp [Bool.and_comm]

theorem length_reverseFrom (found pairs : List (String × String)) :
    (reverseFrom found pairs).1.length + (reverseFrom found pairs).2.length = found.length + pairs.length := by
  fun_induction reverseFrom found pairs with
  | case1 found => rfl
  | case2 found source shadow rest kept hkept reversed clashes hrest ih =>
      rw [hrest] at ih
      simp only [List.length_cons] at ih ⊢
      omega
  | case3 found source shadow rest hnone ih =>
      rw [ih]
      simp only [List.length_append, List.length_cons, List.length_nil]
      omega

theorem reverse_fst (t : Substitution) : t.reverse.1 = (firsts (·.2) t.pairs).map Prod.swap := by
  simp [reverse, reverseFrom_fst]

theorem sourceOf?_reverse (t : Substitution) (shadow : String) :
    sourceOf? t.reverse.1 shadow = (t.pairs.find? (·.2 == shadow)).map (·.1) := by
  have hkey : ∀ a b : String × String, a.2 = b.2 → (a.2 == shadow) = (b.2 == shadow) := by
    intro a b hab
    rw [hab]
  rw [← find?_firsts hkey, sourceOf?, reverse_fst, List.find?_map, Option.map_map]
  rfl

theorem shadows_reverse (t : Substitution) : t.reverse.1.map (·.1) = firsts id (t.pairs.map (·.2)) := by
  rw [reverse_fst, List.map_map, ← map_firsts]
  rfl

theorem mem_of_sourceOf?_reverse {t : Substitution} {shadow source : String}
    (h : sourceOf? t.reverse.1 shadow = some source) : (source, shadow) ∈ t.pairs := by
  rw [sourceOf?_reverse] at h
  obtain ⟨pair, hpair, rfl⟩ := Option.map_eq_some_iff.mp h
  obtain rfl : pair.2 = shadow := by simpa using List.find?_some hpair
  exact List.mem_of_find?_eq_some hpair

theorem shadow?_of_mem_pairs (hcwd : Path.isAbsolute cwd.toList = true) {source shadow : String}
    (h : (source, shadow) ∈ (ofEntries cwd entries).pairs) :
    (ofEntries cwd entries).shadow? cwd source = some shadow := by
  have hnormal : Path.Normal source := normal_of_mem_sources hcwd (List.mem_map_of_mem h)
  have hnodup := nodup_sources_ofEntries cwd entries
  obtain ⟨front, back, hpairs⟩ := List.append_of_mem h
  rw [sources, hpairs, List.map_append, List.map_cons] at hnodup
  have hfront : ∀ pair ∈ front, ¬ (pair.1 == source) = true := by
    intro pair hpair hsource
    refine (List.nodup_append.mp hnodup).2.2 pair.1 (List.mem_map_of_mem hpair) source List.mem_cons_self ?_
    exact beq_iff_eq.mp hsource
  rw [shadow?, hnormal.normalize_eq, hpairs, List.find?_append, List.find?_eq_none.mpr hfront, Option.none_or,
    List.find?_cons_of_pos (by simp), Option.map_some]

end Substitution

namespace Batch

variable {σ : Type}

theorem run_tellClashes (clashes : List Substitution.Clash) (log : Log) (w : σ) :
    ((tellClashes clashes : Task (StateM σ) Unit).run.run log).run w =
      ((.ok (), log ++ (clashes.map fun c => (⟨.warning, Overlay.channel, c.message⟩ : Log.Entry)).toArray), w) := by
  induction clashes generalizing log with
  | nil =>
      rw [List.map_nil, Array.append_empty]
      rfl
  | cons c clashes ih =>
      refine (ih (log.push ⟨.warning, Overlay.channel, c.message⟩)).trans ?_
      rw [List.map_cons, ← List.singleton_append, ← List.append_toArray, ← Array.append_assoc]
      rfl

end Batch

/-- In a table, the last entry for a source counts, in the place of the first. Read backwards, the first source of a
shadow counts and leads back to the shadow, and each further one is told in a warning. -/
theorem Substitution.ofEntries_reverse {σ : Type} (cwd : String) (hcwd : Path.isAbsolute cwd.toList = true)
    (entries : List (String × String)) :
    let t := ofEntries cwd entries
    let key := fun e : String × String => Path.normalize cwd e.1
    (∀ q, t.shadow? cwd q =
      (entries.reverse.find? (key · == Path.normalize cwd q)).map fun e => Path.normalize cwd e.2) ∧
    (∀ q, t.contains cwd q = true ↔ ∃ e ∈ entries, key e = Path.normalize cwd q) ∧
    t.sources = firsts id (entries.map key) ∧
    t.reverse.1.map (·.1) = firsts id (t.pairs.map (·.2)) ∧
    (∀ g, sourceOf? t.reverse.1 g = (t.pairs.find? (·.2 == g)).map (·.1)) ∧
    (∀ g source, sourceOf? t.reverse.1 g = some source → t.shadow? cwd source = some g) ∧
    (∀ g g' source, sourceOf? t.reverse.1 g = some source → sourceOf? t.reverse.1 g' = some source → g = g') ∧
    t.reverse.1.length + t.reverse.2.length = t.size ∧
    ∀ (log : Log) (w : σ), ((Batch.tellClashes t.reverse.2 : Task (StateM σ) Unit).run.run log).run w =
      ((.ok (), log ++ (t.reverse.2.map fun c => (⟨.warning, Overlay.channel, c.message⟩ : Log.Entry)).toArray),
        w) := by
  intro t key
  have hback : ∀ g source, sourceOf? t.reverse.1 g = some source → t.shadow? cwd source = some g := fun g source h =>
    shadow?_of_mem_pairs hcwd (mem_of_sourceOf?_reverse h)
  refine ⟨shadow?_ofEntries cwd entries, fun q => ?_, sources_ofEntries cwd entries, shadows_reverse t,
    sourceOf?_reverse t, hback, fun g g' source h h' => ?_, ?_, Batch.run_tellClashes _⟩
  · rw [contains, shadow?_ofEntries, Option.isSome_map, List.find?_isSome]
    simp only [List.mem_reverse, beq_iff_eq]
    rfl
  · exact Option.some.inj ((hback g source h).symm.trans (hback g' source h'))
  · rw [reverse, length_reverseFrom, size, List.length_nil, Nat.zero_add]

/-- The shadow `x` is overwritten by one that another source has too, and is not found backwards. -/
theorem Substitution.ofEntries_reverse_overwritten :
    let t := ofEntries "/w" [("a", "x"), ("b", "y"), ("./a", "y")]
    Path.isAbsolute "/w".toList = true ∧ t.shadow? "/w" "/w//a" = some "/w/y" ∧
      t.sources = ["/w/a", "/w/b"] ∧ sourceOf? t.reverse.1 "/w/x" = none ∧
      (∀ g source, sourceOf? t.reverse.1 g = some source → t.shadow? "/w" source = some g) ∧
      t.reverse.2 = [⟨"/w/y", "/w/a", "/w/b"⟩] ∧ t.reverse.1.length + t.reverse.2.length = 2 := by
  intro t
  obtain ⟨hshadow, -, hsources, -, hsource, hback, -, hlength, -⟩ :=
    ofEntries_reverse (σ := Unit) "/w" rfl [("a", "x"), ("b", "y"), ("./a", "y")]
  exact ⟨rfl, (hshadow "/w//a").trans (by decide), hsources.trans (by decide), (hsource "/w/x").trans (by decide),
    hback, by decide, hlength.trans (by decide)⟩

end Backmap
