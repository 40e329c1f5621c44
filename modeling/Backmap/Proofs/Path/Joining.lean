import Backmap.Proofs.Batch.Frame
import Backmap.Proofs.Path.Normal
import Backmap.Workspace

/-!
# Joining and normalizing

Normal forms are told by how they are written, and a path that is joined to the normal form of another leads where it
leads from the other as it is written. So it makes no difference how the folder is spelled that a compiler ran in.
-/

namespace Backmap.Path

variable {path cwd : String} {base : List Char} {ps : List (List Char)}

/-! ## How normal forms are written -/

/-- One or two slashes, and behind them names with slashes between them. A name is neither empty nor `.` nor `..`. -/
def Canonical (path : String) : Prop :=
  ∃ root names, (root = ['/'] ∨ root = ['/', '/']) ∧ path.toList = root ++ unite names ∧
    ∀ name ∈ names, name ≠ [] ∧ name ≠ ['.'] ∧ name ≠ ['.', '.'] ∧ '/' ∉ name

theorem Normal.canonical (h : Normal path) : Canonical path := by
  have hroot : rootSlashes path.toList ≠ [] := fun hroot => by
    rw [rootSlashes_eq_nil, h.absolute] at hroot
    cases hroot
  refine ⟨rootSlashes path.toList, components path.toList, ?_, h.text, fun name hname => ?_⟩
  · exact (rootSlashes_cases path.toList).resolve_left hroot
  · obtain ⟨hempty, hdot, hslash⟩ := plain_of_mem_components hname
    exact ⟨hempty, hdot, fun hup => h.ahead (hup ▸ hname), hslash⟩

theorem Canonical.normal (h : Canonical path) : Normal path := by
  obtain ⟨root, names, hroot, htext, hnames⟩ := h
  have hplain : ∀ name ∈ names, Plain name := fun name hname =>
    ⟨(hnames name hname).1, (hnames name hname).2.1, (hnames name hname).2.2.2⟩
  have hslashes : rootSlashes root = root := by rcases hroot with rfl | rfl <;> rfl
  have hcomponents : components path.toList = names := by
    rw [htext, ← hslashes, components_rootSlashes, components_unite hplain]
  refine ⟨?_, ?_, ?_⟩
  · rw [htext]
    rcases hroot with rfl | rfl <;> rfl
  · rw [hcomponents]
    exact fun hup => (hnames _ hup).2.2.1 rfl
  · have hfront := rootSlashes_append_unite root hplain
    rw [hslashes, ← htext] at hfront
    rw [hcomponents, hfront, htext]

theorem exists_getLast?_unite {names : List (List Char)} (h : ∀ name ∈ names, Plain name) (hne : names ≠ []) :
    ∃ c, (unite names).getLast? = some c ∧ c ≠ '/' := by
  induction names with
  | nil => exact absurd rfl hne
  | cons name names ih =>
      obtain ⟨⟨hempty, -, hslash⟩, hnames⟩ := List.forall_mem_cons.mp h
      cases names with
      | nil =>
          refine ⟨name.getLast hempty, ?_, fun hlast => hslash (hlast ▸ List.getLast_mem hempty)⟩
          rw [unite, List.intercalate_singleton, List.getLast?_eq_some_getLast hempty]
      | cons next names =>
          obtain ⟨c, hlast, hc⟩ := ih hnames (List.cons_ne_nil next names)
          refine ⟨c, ?_, hc⟩
          rw [unite, List.intercalate_cons_cons, List.getLast?_append, ← unite, hlast, Option.some_or]

theorem Normal.eq_slash (h : Normal path) (hlast : path.toList.getLast? = some '/') : ∀ c ∈ path.toList, c = '/' := by
  by_cases hnone : components path.toList = []
  · have htext := h.text
    rw [hnone] at htext
    rw [htext]
    rcases rootSlashes_cases path.toList with hroot | hroot | hroot <;> rw [hroot] <;> simp [unite]
  · obtain ⟨c, hc, hne⟩ := exists_getLast?_unite (fun _ => plain_of_mem_components) hnone
    rw [h.text, List.getLast?_append, hc, Option.some_or] at hlast
    exact absurd (Option.some.inj hlast) hne

/-! ## Joining -/

/-- A path as it stands in front of another: a slash ends it, unless it is empty. -/
def front (base : List Char) : List Char :=
  if base = [] ∨ base.getLast? = some '/' then base else base ++ ['/']

theorem join_of_absolute (base : List Char) {path : List Char} (h : isAbsolute path = true) : join base path = path :=
  if_pos h

theorem join_of_relative (base : List Char) {path : List Char} (h : isAbsolute path = false) :
    join base path = front base ++ path := by
  unfold join front
  rw [h, if_neg Bool.false_ne_true]
  split
  · rfl
  · rw [List.append_assoc, List.singleton_append]

theorem front_cases (base : List Char) : front base = [] ∨ (front base).getLast? = some '/' := by
  unfold front
  split
  · assumption
  · exact .inr List.getLast?_concat

theorem front_append (base path : List Char) : front (front base ++ path) = front base ++ front path := by
  cases path with
  | nil =>
      have hself : front (front base) = front base := if_pos (front_cases base)
      rw [List.append_nil, hself]
      exact (List.append_nil _).symm
  | cons c path =>
      have hlast : (front base ++ c :: path).getLast? = (c :: path).getLast? := by
        rw [List.getLast?_append, List.getLast?_cons, Option.some_or]
      have hne : front base ++ c :: path ≠ [] := by simp
      by_cases hslash : (c :: path).getLast? = some '/'
      · have hpath : front (c :: path) = c :: path := if_pos (.inr hslash)
        rw [hpath]
        exact if_pos (.inr (hlast.trans hslash))
      · have hpath : front (c :: path) = c :: path ++ ['/'] := if_neg (not_or.mpr ⟨List.cons_ne_nil c path, hslash⟩)
        rw [hpath, ← List.append_assoc]
        exact if_neg (not_or.mpr ⟨hne, hlast ▸ hslash⟩)

theorem isAbsolute_front_append {path more : List Char} (hpath : isAbsolute path = false)
    (hmore : isAbsolute more = false) : isAbsolute (front path ++ more) = false := by
  cases path with
  | nil => exact hmore
  | cons c path =>
      unfold front
      split
      · exact hpath
      · exact hpath

theorem join_assoc (base path more : List Char) : join (join base path) more = join base (join path more) := by
  cases hmore : isAbsolute more with
  | true => rw [join_of_absolute _ hmore, join_of_absolute _ hmore, join_of_absolute _ hmore]
  | false =>
      rw [join_of_relative _ hmore, join_of_relative path hmore]
      cases hpath : isAbsolute path with
      | true =>
          have hjoined : isAbsolute (front path ++ more) = true := by
            rw [← join_of_relative path hmore]
            exact isAbsolute_join hpath more
          rw [join_of_absolute _ hpath, join_of_absolute _ hjoined]
      | false =>
          rw [join_of_relative _ hpath, join_of_relative _ (isAbsolute_front_append hpath hmore), front_append,
            List.append_assoc]

theorem rootSlashes_three (c d e : Char) (rest rest' : List Char) :
    rootSlashes (c :: d :: e :: rest) = rootSlashes (c :: d :: e :: rest') := by
  by_cases hc : c = '/' <;> by_cases hd : d = '/' <;> by_cases he : e = '/' <;> simp [rootSlashes, hc, hd, he]

theorem rootSlashes_join (hbase : isAbsolute base = true) {path : List Char} (h : isAbsolute path = false) :
    rootSlashes (join base path) = rootSlashes base := by
  have hslash : ∀ c rest, path = c :: rest → c ≠ '/' := by
    rintro c rest rfl rfl
    cases h
  rw [join_of_relative base h]
  rcases base with _ | ⟨c, _ | ⟨d, _ | ⟨e, rest⟩⟩⟩
  · cases hbase
  · obtain rfl : c = '/' := by simpa [isAbsolute] using hbase
    cases path with
    | nil => rfl
    | cons p path => simp [front, rootSlashes, hslash p path rfl]
  · obtain rfl : c = '/' := by simpa [isAbsolute] using hbase
    by_cases hd : d = '/'
    · cases path with
      | nil => simp [front, hd]
      | cons p path => simp [front, rootSlashes, hd, hslash p path rfl]
    · simp [front, rootSlashes, hd]
  · unfold front
    split
    · exact rootSlashes_three c d e _ _
    · exact rootSlashes_three c d e _ _

/-- What is resolved first leads no further than the pieces themselves. -/
theorem resolve_append (h : ∀ c ∈ ps, Plain c) (qs : List (List Char)) :
    resolve (resolve ps ++ qs) = resolve (ps ++ qs) := by
  have hplain : ∀ c ∈ resolve ps, Plain c := fun c hc => h c (mem_resolve hc)
  have hstack : (resolve ps).foldl push [] = ps.foldl push [] :=
    List.reverse_inj.mp (resolve_eq_self hplain (up_notMem_resolve ps))
  calc resolve (resolve ps ++ qs) = (qs.foldl push ((resolve ps).foldl push [])).reverse := by
        rw [resolve, List.foldl_append]
    _ = resolve (ps ++ qs) := by rw [hstack, ← List.foldl_append, ← resolve]

/-! ## Normal forms of joined paths -/

theorem rootSlashes_normalize (cwd path : String) :
    rootSlashes (normalize cwd path).toList = rootSlashes (join cwd.toList path.toList) := by
  rw [normalize, String.toList_ofList, resolve_pieces]
  exact rootSlashes_append_unite _ fun c hc => plain_of_mem_components (mem_resolve hc)

/-- Paths with the same slashes in front that lead to the same components have the same normal form. -/
theorem normalize_congr {path path' : String}
    (hslashes : rootSlashes (join cwd.toList path.toList) = rootSlashes (join cwd.toList path'.toList))
    (hlead : resolve (components (join cwd.toList path.toList)) = resolve (components (join cwd.toList path'.toList))) :
    normalize cwd path = normalize cwd path' := by
  simp only [normalize, resolve_pieces, hslashes, hlead]

theorem normalize_join (hcwd : isAbsolute cwd.toList = true) (base path : String) :
    normalize cwd (String.ofList (join (normalize cwd base).toList path.toList)) =
      normalize cwd (String.ofList (join base.toList path.toList)) := by
  have hfull := isAbsolute_join hcwd base.toList
  have hnormal := (normal_normalize hcwd base).absolute
  cases hpath : isAbsolute path.toList with
  | true => rw [join_of_absolute _ hpath, join_of_absolute _ hpath]
  | false =>
      apply normalize_congr
      · rw [String.toList_ofList, String.toList_ofList, ← join_assoc, ← join_assoc, join_of_absolute _ hnormal,
          rootSlashes_join hnormal hpath, rootSlashes_join hfull hpath, rootSlashes_normalize]
      · rw [String.toList_ofList, String.toList_ofList, ← join_assoc, ← join_assoc, join_of_absolute _ hnormal,
          components_join, components_join, hpath, if_neg Bool.false_ne_true, if_neg Bool.false_ne_true,
          components_normalize, resolve_append fun c => plain_of_mem_components]

end Backmap.Path

namespace Backmap

open Backmap.Path

variable {σ : Type}

/-- The frame of a batch takes the paths of the compiler to where they lead from the folder that the request names. -/
theorem Batch.frame_resolve {s : Settings} {cwd base : String} {machine : Machine (StateM σ)} {q : Request}
    (hcwd : isAbsolute cwd.toList = true) (hbase : q.compileRoot = some base) (log : Log) (w : σ) :
    (frame s cwd machine q).Ends log w fun x _ => ∀ f, x = .ok f → ∀ path,
      f.resolve path = normalize cwd (String.ofList (join base.toList path.toList)) := by
  have hfound : (findBase s cwd machine q).Ends log w fun x _ => x = .ok (normalize cwd base) := by
    unfold findBase
    rw [hbase]
    exact Task.ends_pure.mpr rfl
  refine frame_ends hfound ?_ ?_
  · rintro _ log' w' ⟨⟩ f hf path
    obtain ⟨table, -, rfl⟩ := map_eq_ok.mp hf
    exact normalize_join hcwd base path
  · rintro e w' ⟨⟩

/-- As seen from an absolute folder, normalizing is a canonicalization: what it gives is written canonically and ends
in a slash only if it is made of slashes, and the paths that it leaves as they are are those that are written so. It
may be done before a path is joined or after, and so a batch resolves the paths of the compiler against the normal
form of its folder as against the folder itself. -/
theorem Path.normalize_canonical (cwd : String) (hcwd : isAbsolute cwd.toList = true) (a b : String) :
    Canonical (normalize cwd a) ∧
      ((normalize cwd a).toList.getLast? = some '/' → ∀ c ∈ (normalize cwd a).toList, c = '/') ∧
      normalize cwd (normalize cwd a) = normalize cwd a ∧ (normalize cwd a = a ↔ Canonical a) ∧
      normalize cwd (String.ofList (join (normalize cwd a).toList b.toList)) =
        normalize cwd (String.ofList (join a.toList b.toList)) ∧
      ∀ {σ : Type} (s : Settings) (machine : Machine (StateM σ)) (q : Batch.Request) (w : σ) (f : Batch.Frame),
        q.compileRoot = some a → (((Batch.frame s cwd machine q).run.run #[]).run w).1.1 = .ok f →
        f.resolve b = normalize cwd (String.ofList (join a.toList b.toList)) := by
  have hnormal := normal_normalize hcwd a
  refine ⟨hnormal.canonical, hnormal.eq_slash, hnormal.normalize_eq cwd, ?_, normalize_join hcwd a b, ?_⟩
  · exact ⟨fun hself => hself ▸ hnormal.canonical, fun hcanonical => hcanonical.normal.normalize_eq cwd⟩
  · intro σ s machine q w f hbase hf
    exact Batch.frame_resolve hcwd hbase #[] w f hf b

/-- The folder is written from elsewhere, with a detour and slashes to spare, and the path leads out of it. -/
theorem Path.normalize_canonical_detour :
    let q : Batch.Request := { output := "", root := ".", compileRoot := some "../x//./y/", table := .given none }
    isAbsolute "//tmp/ws".toList = true ∧ normalize "//tmp/ws" "../x//./y/" = "//tmp/x/y" ∧ Canonical "//tmp/x/y" ∧
      normalize "//tmp/ws" (String.ofList (join "//tmp/x/y".toList "../../../../a.go".toList)) = "//a.go" ∧
      ∃ f, (((Batch.frame {} "//tmp/ws" (Machine.ofState .usual id) q).run.run #[]).run ⟨[], []⟩).1.1 = .ok f ∧
        f.resolve "../../../../a.go" = "//a.go" := by
  intro q
  have hfolder : normalize "//tmp/ws" "../x//./y/" = "//tmp/x/y" := by decide
  have hpath : normalize "//tmp/ws" (String.ofList (join "../x//./y/".toList "../../../../a.go".toList)) =
      "//a.go" := by
    decide
  obtain ⟨hcanonical, -, -, -, hjoin, hresolve⟩ :=
    normalize_canonical "//tmp/ws" rfl "../x//./y/" "../../../../a.go"
  rw [hfolder] at hcanonical hjoin
  refine ⟨rfl, hfolder, hcanonical, hjoin.trans hpath, _, rfl, ?_⟩
  exact (hresolve {} (Machine.ofState .usual id) q ⟨[], []⟩ _ rfl rfl).trans hpath

end Backmap
