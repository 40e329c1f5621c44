import Backmap.Proofs.Anchor.Snapping
import Backmap.Proofs.Directive.Grammar
import Backmap.Settings

/-!
# Indexed lines

A line is indexed if a comment on it begins with one of the tokens. The tokens by default are the keywords of
directives, so every line that a directive is read from is among those that diagnostics are snapped onto.
-/

namespace Backmap.AnchorIndex

open Text

variable {p q : List Char → Bool} {cs line : List Char} {n : Nat} {ls : List (List Char)}

/-! ## Comments with a token -/

/-- On the line stand two slashes, any number of blanks and one of the tokens. -/
def Carries (tokens : List String) (line : List Char) : Prop :=
  ∃ token ∈ tokens, ∃ gap, (∀ c ∈ gap, isBlank c = true) ∧ '/' :: '/' :: (gap ++ token.toList) <:+: line

theorem tokenAhead_iff {tokens : List (List Char)} :
    tokenAhead tokens cs = true ↔ ∃ token ∈ tokens, ∃ gap, (∀ c ∈ gap, isBlank c = true) ∧ gap ++ token <+: cs := by
  induction cs with
  | nil =>
      simp only [tokenAhead, List.any_eq_true, List.isEmpty_iff, List.prefix_nil, List.append_eq_nil_iff]
      constructor
      · rintro ⟨token, htoken, rfl⟩
        exact ⟨[], htoken, [], List.forall_mem_nil _, rfl, rfl⟩
      · rintro ⟨token, htoken, gap, -, -, rfl⟩
        exact ⟨[], htoken, rfl⟩
  | cons c cs ih =>
      simp only [tokenAhead, Bool.or_eq_true, Bool.and_eq_true, List.any_eq_true, List.isPrefixOf_iff_prefix, ih]
      constructor
      · rintro (⟨token, htoken, hstart⟩ | ⟨hc, token, htoken, gap, hgap, hstart⟩)
        · exact ⟨token, htoken, [], List.forall_mem_nil _, hstart⟩
        · exact ⟨token, htoken, c :: gap, List.forall_mem_cons.mpr ⟨hc, hgap⟩, List.cons_prefix_cons.mpr ⟨rfl, hstart⟩⟩
      · rintro ⟨token, htoken, gap, hgap, hstart⟩
        cases gap with
        | nil => exact .inl ⟨token, htoken, hstart⟩
        | cons d gap =>
            obtain ⟨rfl, hbehind⟩ := List.cons_prefix_cons.mp hstart
            obtain ⟨hd, hgap⟩ := List.forall_mem_cons.mp hgap
            exact .inr ⟨hd, token, htoken, gap, hgap, hbehind⟩

theorem marks_cons (tokens : List (List Char)) (c : Char) (cs : List Char) :
    marks tokens (c :: cs) = true ↔
      (∃ rest, c :: cs = '/' :: '/' :: rest ∧ tokenAhead tokens rest = true) ∨ marks tokens cs = true := by
  rw [marks, Bool.or_eq_true]
  refine or_congr_left ?_
  cases hafter : after? ['/', '/'] (c :: cs) with
  | none =>
      refine iff_of_false Bool.false_ne_true ?_
      rintro ⟨rest, hrest, -⟩
      rw [after?_eq_some_iff.mpr hrest] at hafter
      cases hafter
  | some rest =>
      obtain ⟨rfl, rfl⟩ := List.cons.inj (after?_eq_some_iff.mp hafter)
      exact ⟨fun h => ⟨rest, rfl, h⟩, fun ⟨_, hrest, h⟩ => by cases hrest; exact h⟩

theorem marks_iff {tokens : List (List Char)} :
    marks tokens line = true ↔
      ∃ token ∈ tokens, ∃ gap, (∀ c ∈ gap, isBlank c = true) ∧ '/' :: '/' :: (gap ++ token) <:+: line := by
  induction line with
  | nil => simp [marks]
  | cons c cs ih =>
      rw [marks_cons, ih]
      constructor
      · rintro (⟨rest, hrest, hahead⟩ | ⟨token, htoken, gap, hgap, hinner⟩)
        · obtain ⟨token, htoken, gap, hgap, hstart⟩ := tokenAhead_iff.mp hahead
          refine ⟨token, htoken, gap, hgap, List.IsPrefix.isInfix ?_⟩
          rw [hrest, List.cons_prefix_cons, List.cons_prefix_cons]
          exact ⟨rfl, rfl, hstart⟩
        · exact ⟨token, htoken, gap, hgap, hinner.trans (List.suffix_cons c cs).isInfix⟩
      · rintro ⟨token, htoken, gap, hgap, hinner⟩
        rcases List.infix_cons_iff.mp hinner with ⟨rest, hstart⟩ | hinner
        · have hahead := tokenAhead_iff.mpr ⟨token, htoken, gap, hgap, List.prefix_append (gap ++ token) rest⟩
          exact .inl ⟨gap ++ token ++ rest, hstart.symm, hahead⟩
        · exact .inr ⟨token, htoken, gap, hgap, hinner⟩

theorem marks_effective_iff {tokens : List String} :
    marks (effective tokens) line = true ↔ Carries tokens line ∨ tokens = [] ∧ ['/', '/'] <:+: line := by
  rw [marks_iff]
  by_cases htokens : tokens = []
  · subst htokens
    rw [effective, if_pos rfl]
    constructor
    · rintro ⟨token, htoken, gap, -, hinner⟩
      exact .inr ⟨rfl, (List.prefix_append ['/', '/'] (gap ++ token)).isInfix.trans hinner⟩
    · rintro (⟨token, htoken, -⟩ | ⟨-, hinner⟩)
      · cases htoken
      · exact ⟨[], List.mem_singleton_self [], [], List.forall_mem_nil _, hinner⟩
  · simp [effective, Carries, htokens]

/-! ## The index of a text -/

theorem mem_indicesWhere_of_getElem? {k : Nat} (hline : ls[k]? = some line) (hp : p line = true) :
    ((n + k : Nat) : Int) ∈ indicesWhere p n ls := by
  induction ls generalizing n k with
  | nil => cases hline
  | cons l ls ih =>
      rw [indicesWhere]
      cases k with
      | zero =>
          cases hline
          rw [if_pos hp]
          exact List.mem_cons_self
      | succ k =>
          have hmem := ih (n := n + 1) hline
          rw [Nat.add_right_comm, Nat.add_assoc] at hmem
          split
          · exact List.mem_cons_of_mem _ hmem
          · exact hmem

theorem mem_build_iff {text : String} {tokens : List String} {i : Int} :
    i ∈ (build text tokens).lines ↔ ∃ (k : Nat) (line : List Char), i = k ∧ (Text.lines text.toList)[k]? = some line ∧
      (Carries tokens line ∨ tokens = [] ∧ ['/', '/'] <:+: line) := by
  constructor
  · intro h
    obtain ⟨k, line, hline, hmarks, rfl⟩ := mem_indicesWhere h
    exact ⟨k, line, by rw [Nat.zero_add], hline, marks_effective_iff.mp hmarks⟩
  · rintro ⟨k, line, rfl, hline, hcarries⟩
    have hmem := mem_indicesWhere_of_getElem? (n := 0) hline (marks_effective_iff.mpr hcarries)
    rwa [Nat.zero_add] at hmem

theorem Increasing.snap?_of_mem {a : AnchorIndex} {line : Int} (h : a.Increasing) (hline : line ∈ a.lines)
    (reach : Int) : a.snap? line reach = some line :=
  h.snap?_eq_some.mpr ⟨isGreatest_upTo_self hline, .inl rfl⟩

/-- The index of a text has, in their order, exactly the lines with a comment that one of the tokens begins, whatever
characters it is made of. Without tokens it has every line with a comment, so that nothing is snapped only if there is
none. -/
theorem build_lines_exact (text : String) (tokens : List String) :
    (build text tokens).lines.Pairwise (· < ·) ∧
    (∀ i : Int, i ∈ (build text tokens).lines ↔ ∃ (k : Nat) (line : List Char), i = k ∧
      (Text.lines text.toList)[k]? = some line ∧ (Carries tokens line ∨ tokens = [] ∧ ['/', '/'] <:+: line)) ∧
    ((∀ line reach, (build text []).snap? line reach = none) ↔
      ∀ line ∈ Text.lines text.toList, ¬ ['/', '/'] <:+: line) := by
  refine ⟨build_increasing text tokens, fun i => mem_build_iff, ?_⟩
  have hincreasing := build_increasing text []
  constructor
  · intro h line hmem hcomment
    obtain ⟨k, hline⟩ := List.mem_iff_getElem?.mp hmem
    have hindexed := mem_build_iff.mpr ⟨k, line, rfl, hline, .inr ⟨rfl, hcomment⟩⟩
    have hsnap := h k 0
    rw [hincreasing.snap?_of_mem hindexed] at hsnap
    cases hsnap
  · intro h line reach
    refine hincreasing.snap?_eq_none.mpr fun anchor hanchor => ?_
    obtain ⟨k, line, -, hline, ⟨token, htoken, -⟩ | ⟨-, hcomment⟩⟩ := mem_build_iff.mp hanchor.1.1
    · cases htoken
    · exact absurd hcomment (h line (List.mem_of_getElem? hline))

/-- The warning says that nothing will be snapped, but a line is snapped onto the comment above it. -/
theorem snaps_without_tokens :
    Settings.warnings { directiveTokens := [] } = ["directive_tokens is empty; nothing will be snapped"] ∧
      (build "// note\nx" []).lines = [0] ∧ (build "// note\nx" []).snap? 1 30 = some 0 ∧
      ∀ line, ¬ Carries [] line := by
  have hlines : (build "// note\nx" []).lines = [0] := by decide
  refine ⟨by decide, hlines, ?_, ?_⟩
  · refine (build_increasing _ _).snap?_eq_some.mpr ⟨⟨?_, ?_⟩, .inr (by decide)⟩
    · exact ⟨by rw [hlines]; decide, by decide⟩
    · rintro i ⟨hi, -⟩
      rw [hlines, List.mem_singleton] at hi
      exact hi.le
  · rintro line ⟨token, htoken, -⟩
    cases htoken

/-! ## Lines with a directive -/

theorem indicesWhere_sublist (h : ∀ line, p line = true → q line = true) (n : Nat) (ls : List (List Char)) :
    (indicesWhere p n ls).Sublist (indicesWhere q n ls) := by
  induction ls generalizing n with
  | nil => exact .slnil
  | cons l ls ih =>
      rw [indicesWhere, indicesWhere]
      by_cases hp : p l = true
      · rw [if_pos hp, if_pos (h l hp)]
        exact (ih (n + 1)).cons_cons _
      · rw [if_neg hp]
        split
        · exact (ih (n + 1)).cons _
        · exact ih (n + 1)

end Backmap.AnchorIndex

namespace Backmap.Directive

open AnchorIndex

theorem ofLines_indices (n : Nat) (ls : List (List Char)) :
    (ofLines n ls).map (fun found => (found.1 : Int)) =
      indicesWhere (fun line => (parse? (String.ofList line)).isSome) n ls := by
  induction ls generalizing n with
  | nil => rfl
  | cons l ls ih =>
      rw [ofLines, indicesWhere]
      cases parse? (String.ofList l) with
      | none => exact ih (n + 1)
      | some d => exact congrArg _ (ih (n + 1))

theorem carries_of_parse? {line : String} {d : Directive} (h : parse? line = some d) :
    Carries ({} : Settings).directiveTokens line.toList := by
  obtain ⟨hkind, -⟩ := parse?_eq_some_iff.mp h
  obtain ⟨gap, hgap, hinner⟩ := comment_infix hkind
  have hkeyword : ∃ token ∈ ({} : Settings).directiveTokens, token.toList = d.kind.keyword := by
    cases d.kind with
    | inco => exact ⟨"@inco:", by decide, by decide⟩
    | cond => exact ⟨"@if:", by decide, by decide⟩
  obtain ⟨token, htoken, hkeyword⟩ := hkeyword
  exact ⟨token, htoken, gap, hgap, hkeyword ▸ hinner⟩

/-- The lines that directives are read from are among those that are indexed by default, in the same order, and each of
them is snapped onto itself. -/
theorem scan_within_index (text : String) :
    (∀ i d, (i, d) ∈ scan text ↔
      ∃ line, (Text.lines text.toList)[i]? = some line ∧ parse? (String.ofList line) = some d) ∧
    ((scan text).map fun found => (found.1 : Int)).Pairwise (· < ·) ∧
    ((scan text).map fun found => (found.1 : Int)).Sublist (build text ({} : Settings).directiveTokens).lines ∧
    ∀ found ∈ scan text, ∀ reach,
      (build text ({} : Settings).directiveTokens).snap? found.1 reach = some (found.1 : Int) := by
  have hsublist : ((scan text).map fun found => (found.1 : Int)).Sublist
      (build text ({} : Settings).directiveTokens).lines := by
    rw [scan, ofLines_indices]
    refine indicesWhere_sublist (fun line hline => ?_) _ _
    obtain ⟨d, hparse⟩ := Option.isSome_iff_exists.mp hline
    have hcarries := carries_of_parse? hparse
    rw [String.toList_ofList] at hcarries
    exact marks_effective_iff.mpr (.inl hcarries)
  refine ⟨fun i d => mem_scan_iff, ?_, hsublist, fun found hfound reach => ?_⟩
  · rw [scan, ofLines_indices]
    exact indicesWhere_increasing _ _ _
  · exact (build_increasing _ _).snap?_of_mem (hsublist.subset (List.mem_map_of_mem hfound)) reach

/-- A contract behind code and one in a condition; a comment with the bare keyword is indexed and not listed. -/
theorem scan_within_index_inline :
    (scan "x // @inco: x > 0\n//@if:\n//\t@if: y, -log(\"y\")").map (·.1) = [0, 2] ∧
      (build "x // @inco: x > 0\n//@if:\n//\t@if: y, -log(\"y\")" ({} : Settings).directiveTokens).lines = [0, 1, 2] ∧
      (build "x // @inco: x > 0\n//@if:\n//\t@if: y, -log(\"y\")" ({} : Settings).directiveTokens).snap? 2 (-1) =
        some 2 := by
  have hscan : scan "x // @inco: x > 0\n//@if:\n//\t@if: y, -log(\"y\")" =
      [(0, ⟨.inco, "x > 0", some .panic, "", true⟩), (2, ⟨.cond, "y", some .log, "\"y\"", false⟩)] := by decide
  refine ⟨by rw [hscan]; rfl, by decide, ?_⟩
  exact (scan_within_index _).2.2.2 (2, ⟨.cond, "y", some .log, "\"y\"", false⟩) (by rw [hscan]; simp) (-1)

end Backmap.Directive
