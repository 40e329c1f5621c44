import Backmap.Proofs.Anchor.Index
import Backmap.Proofs.Marker
import Backmap.Proofs.Text.Lines

/-!
# Line numbers

A compiler ends its lines at line feeds only, while markers and directives are counted in lines that other characters
end as well. The two numberings drift apart by one at each such character.
-/

namespace Backmap

namespace Text

/-- Ends a line, but not one that a compiler counts. -/
def isForeign (c : Char) : Bool := isBreak c && c != '\n'

variable {cs before line after : List Char}

theorem countP_isBreak (cs : List Char) : cs.countP isBreak = cs.count '\n' + cs.countP isForeign := by
  induction cs with
  | nil => rfl
  | cons c cs ih =>
      by_cases hc : c = '\n'
      · subst hc
        rw [List.countP_cons_of_pos (by decide), List.count_cons_self, List.countP_cons_of_neg (by decide), ih]
        omega
      · have hforeign : isForeign c = isBreak c := by simp [isForeign, hc]
        rw [List.count_cons_of_ne hc, List.countP_cons, List.countP_cons, hforeign, ih, Nat.add_assoc]

theorem exists_line {k : Nat} (hcs : '\r' ∉ cs) (h : (lines cs)[k]? = some line) :
    ∃ before after, Piece isBreak cs before line after ∧ k = before.count '\n' + before.countP isForeign := by
  obtain ⟨tail, hsplit, -⟩ := splitOnP_isBreak hcs
  have hk : (cs.splitOnP isBreak)[k]? = some line := by
    rw [hsplit, List.getElem?_append_left (List.getElem?_eq_some_iff.mp h).1, h]
  obtain ⟨before, after, hpiece, hcount⟩ := exists_piece hk
  exact ⟨before, after, hpiece, by rw [← countP_isBreak, hcount]⟩

theorem isForeign_of_isBreak {c : Char} (hb : isBreak c = true) (hc : (c == '\n') = false) : isForeign c = true := by
  rw [isForeign, hb, bne, hc]
  rfl

theorem Piece.seen (h : Piece isBreak cs before line after) :
    ∃ left right, (splitOn '\n' cs)[before.count '\n']? = some (left ++ (line ++ right)) ∧
      (before.countP isForeign = 0 → left = []) ∧ (right = [] ↔ (after.take 1).countP isForeign = 0) := by
  have hnewline : ∀ c : Char, (c == '\n') = true → isBreak c = true := by
    intro c hc
    rw [beq_iff_eq.mp hc]
    decide
  obtain ⟨front, left, right, back, rfl, rfl, hleft, hseen⟩ := h.widen hnewline
  refine ⟨left, right, ?_, fun h0 => ?_, ?_⟩
  · have hzero : left.count '\n' = 0 := List.countP_eq_zero.mpr fun c hc => Bool.eq_false_iff.mp (hleft c hc)
    rw [splitOn_eq, List.splitOn_eq_splitOnP, List.count_append, hzero, Nat.add_zero]
    exact hseen.getElem?
  · -- the last character of `left` would end a line and be no line feed
    cases hlast : left.getLast? with
    | none => exact List.getLast?_eq_none_iff.mp hlast
    | some c =>
        have hmem : c ∈ left := List.mem_of_getLast? hlast
        have hbreak : isBreak c = true := h.start c (by rw [List.getLast?_append, hlast]; rfl)
        have hzero := List.countP_eq_zero.mp h0 c (List.mem_append_right front hmem)
        exact absurd (isForeign_of_isBreak hbreak (hleft c hmem)) hzero
  · cases right with
    | nil =>
        refine ⟨fun _ => ?_, fun _ => rfl⟩
        cases back with
        | nil => rfl
        | cons c back =>
            have hc : c = '\n' := beq_iff_eq.mp (hseen.stop c rfl)
            simp [hc, isForeign]
    | cons c right =>
        have hbreak : isBreak c = true := h.stop c rfl
        have hc : (c == '\n') = false := hseen.inner c (by simp)
        simp [isForeign_of_isBreak hbreak hc]

theorem trimLeft_append_eq {line right : List Char} (h : trimLeft line ≠ []) :
    trimLeft (line ++ right) = trimLeft line ↔ right = [] := by
  have hempty : ¬ (line.dropWhile isBlank).isEmpty = true := by simpa [trimLeft] using h
  rw [trimLeft, List.dropWhile_append, if_neg hempty]
  exact List.append_right_eq_self

/-- Without foreign boundaries, lines are what a compiler takes for them, but for an empty one at the end. -/
theorem splitOn_newline (hcs : '\r' ∉ cs) (h : ∀ c ∈ cs, isForeign c = false) :
    ∃ tail, splitOn '\n' cs = lines cs ++ tail ∧ (tail = [] ∨ tail = [[]]) := by
  have hsame : cs.splitOnP isBreak = cs.splitOn '\n' := by
    rw [List.splitOn_eq_splitOnP]
    clear hcs
    induction cs with
    | nil => rfl
    | cons c cs ih =>
        obtain ⟨hc, hcs⟩ := List.forall_mem_cons.mp h
        have hbreak : isBreak c = (c == '\n') := by
          cases hn : c == '\n' with
          | true => rw [beq_iff_eq.mp hn]; decide
          | false =>
              refine Bool.eq_false_iff.mpr fun hb => ?_
              rw [isForeign_of_isBreak hb hn] at hc
              cases hc
        rw [List.splitOnP_cons_eq_if_modifyHead, List.splitOnP_cons_eq_if_modifyHead, ih hcs, hbreak]
  rw [splitOn_eq, ← hsame]
  exact splitOnP_isBreak hcs

end Text

/-! ## Markers -/

namespace Marker

open Text

variable {token : List Char}

theorem parts?_nil : parts? token [] = none := by
  cases token <;> rfl

theorem ofLines_concat_nil (index : Nat) (ls : List (List Char)) :
    ofLines token index (ls ++ [[]]) = ofLines token index ls := by
  induction ls generalizing index with
  | nil =>
      have hnil : trimLeft [] = [] := rfl
      simp only [List.nil_append, ofLines, hnil, parts?_nil]
  | cons l ls ih => rw [List.cons_append, ofLines, ofLines, ih]

end Marker

namespace AnchorIndex

open Text

theorem indicesWhere_concat_nil {p : List Char → Bool} (hp : p [] = false) (index : Nat) (ls : List (List Char)) :
    indicesWhere p index (ls ++ [[]]) = indicesWhere p index ls := by
  induction ls generalizing index with
  | nil => simp [indicesWhere, hp]
  | cons l ls ih => rw [List.cons_append, indicesWhere, indicesWhere, ih]

end AnchorIndex

/-- The number of a marker and that of a directive is the number that a compiler gives to the place where its line
begins, and one more for each foreign boundary before it. Without such boundaries both are numbers of a compiler. -/
theorem line_numbers_drift (text token : String) (tokens : List String) (h : '\r' ∉ text.toList) :
    (∀ ms, Marker.findAll text token = .ok ms → ∀ m ∈ ms, ∃ before line after seen,
      Text.Piece Text.isBreak text.toList before line after ∧ Marker.Reads token.toList line m ∧
      m.index = (before.count '\n' + before.countP Text.isForeign : Nat) ∧
      (Text.splitOn '\n' text.toList)[before.count '\n']? = some seen ∧ line <:+: seen ∧
      (m.index = (before.count '\n' : Nat) ∧ Text.trimLeft seen = Text.trimLeft line ↔
        (before ++ after.take 1).countP Text.isForeign = 0)) ∧
    (∀ i ∈ (AnchorIndex.build text tokens).lines, ∃ before line after seen,
      Text.Piece Text.isBreak text.toList before line after ∧
      AnchorIndex.marks (AnchorIndex.effective tokens) line = true ∧
      i = (before.count '\n' + before.countP Text.isForeign : Nat) ∧
      (Text.splitOn '\n' text.toList)[before.count '\n']? = some seen ∧ line <:+: seen ∧
      (i = (before.count '\n' : Nat) ↔ before.countP Text.isForeign = 0)) ∧
    ((∀ c ∈ text.toList, Text.isForeign c = false) →
      Marker.findAll text token = Marker.ofLines token.toList 0 (Text.splitOn '\n' text.toList) ∧
      (AnchorIndex.build text tokens).lines =
        AnchorIndex.indicesWhere (AnchorIndex.marks (AnchorIndex.effective tokens)) 0
          (Text.splitOn '\n' text.toList)) := by
  refine ⟨fun ms hms m hm => ?_, fun i hi => ?_, fun hforeign => ?_⟩
  · obtain ⟨k, line, hk, hread, hindex⟩ := Marker.mem_ofLines hms hm
    obtain ⟨before, after, hpiece, hnumber⟩ := Text.exists_line h hk
    obtain ⟨left, right, hseen, hleft, hright⟩ := hpiece.seen
    have hindex : m.index = (before.count '\n' + before.countP Text.isForeign : Nat) := by
      rw [hindex, hnumber, Nat.zero_add]
    refine ⟨before, line, after, _, hpiece, hread, hindex, hseen, ⟨left, right, ?_⟩, ?_⟩
    · rw [List.append_assoc]
    · rw [List.countP_append]
      constructor
      · rintro ⟨hi, htrim⟩
        have h0 : before.countP Text.isForeign = 0 := by omega
        rw [hleft h0, List.nil_append, Text.trimLeft_append_eq hread.trimLeft_ne_nil] at htrim
        rw [h0, hright.mp htrim]
      · intro hzero
        obtain ⟨h0, h1⟩ := Nat.add_eq_zero_iff.mp hzero
        rw [hleft h0, List.nil_append, Text.trimLeft_append_eq hread.trimLeft_ne_nil]
        exact ⟨by omega, hright.mpr h1⟩
  · obtain ⟨k, line, hk, hmarks, hindex⟩ := AnchorIndex.mem_indicesWhere hi
    obtain ⟨before, after, hpiece, hnumber⟩ := Text.exists_line h hk
    obtain ⟨left, right, hseen, -, -⟩ := hpiece.seen
    refine ⟨before, line, after, _, hpiece, hmarks, ?_, hseen, ⟨left, right, ?_⟩, ?_⟩
    · rw [hindex, hnumber, Nat.zero_add]
    · rw [List.append_assoc]
    · omega
  · obtain ⟨tail, hsplit, rfl | rfl⟩ := Text.splitOn_newline h hforeign
    · rw [hsplit, List.append_nil]
      exact ⟨rfl, rfl⟩
    · rw [hsplit, Marker.ofLines_concat_nil, AnchorIndex.indicesWhere_concat_nil rfl]
      exact ⟨rfl, rfl⟩

/-- A form feed stands in the line before a marker. -/
theorem line_numbers_drift_formFeed :
    '\r' ∉ "a\x0c\n //line /x.go:3\n".toList ∧
    Marker.findAll "a\x0c\n //line /x.go:3\n" "//line" = .ok [⟨2, "/x.go", 3⟩] ∧
    ∃ before line after seen : List Char,
      Text.Piece Text.isBreak "a\x0c\n //line /x.go:3\n".toList before line after ∧
      Marker.Reads "//line".toList line ⟨2, "/x.go", 3⟩ ∧
      (2 : Int) = (before.count '\n' + before.countP Text.isForeign : Nat) ∧
      (Text.splitOn '\n' "a\x0c\n //line /x.go:3\n".toList)[before.count '\n']? = some seen ∧ line <:+: seen ∧
      ((2 : Int) = (before.count '\n' : Nat) ∧ Text.trimLeft seen = Text.trimLeft line ↔
        (before ++ after.take 1).countP Text.isForeign = 0) := by
  have hreturn : '\r' ∉ "a\x0c\n //line /x.go:3\n".toList := by decide
  have hmarkers : Marker.findAll "a\x0c\n //line /x.go:3\n" "//line" = .ok [⟨2, "/x.go", 3⟩] := by rfl
  exact ⟨hreturn, hmarkers, (line_numbers_drift _ _ [] hreturn).1 _ hmarkers _ List.mem_cons_self⟩

/-- Behind a line separator in a comment a marker gets the number of the line behind its own. -/
theorem marker_index_after_separator :
    Marker.findAll "// a\u2028b\n//line /x.go:3\n" "//line" = .ok [⟨2, "/x.go", 3⟩] ∧
      (Text.splitOn '\n' "// a\u2028b\n//line /x.go:3\n".toList)[1]? = some "//line /x.go:3".toList ∧
      (Text.splitOn '\n' "// a\u2028b\n//line /x.go:3\n".toList)[2]? = some [] := by
  refine ⟨?_, ?_, ?_⟩
  · rfl
  · rfl
  · rfl

end Backmap
