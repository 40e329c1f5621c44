import Backmap.Text.Lines

/-!
# Splitting text

Both ways of splitting a text are brought down to those of the library, `List.splitOn` and `List.splitOnP`.
-/

namespace Backmap.Text

/-! ## At a character -/

theorem splitOn_eq (sep : Char) (cs : List Char) : splitOn sep cs = cs.splitOn sep := by
  induction cs with
  | nil => rfl
  | cons c cs ih =>
      rw [List.splitOn_cons_eq_if_modifyHead, ← ih]
      simp only [beq_iff_eq]
      rfl

theorem notMem_of_mem_splitOnP {α : Type} {p : α → Bool} {as piece : List α} (h : piece ∈ as.splitOnP p) :
    ∀ a ∈ piece, p a = false := by
  induction as generalizing piece with
  | nil =>
      simp only [List.splitOnP_nil, List.mem_singleton] at h
      simp [h]
  | cons a as ih =>
      rw [List.splitOnP_cons_eq_if_modifyHead] at h
      split at h
      · rcases List.mem_cons.mp h with rfl | h
        · simp
        · exact ih h
      · next ha =>
        obtain ⟨first, rest, hsplit⟩ := List.exists_cons_of_ne_nil (List.splitOnP_ne_nil p as)
        rw [hsplit] at h ih
        rcases List.mem_cons.mp h with rfl | h
        · intro b hb
          rcases List.mem_cons.mp hb with rfl | hb
          · exact Bool.eq_false_iff.mpr ha
          · exact ih List.mem_cons_self b hb
        · exact ih (List.mem_cons_of_mem _ h)

theorem length_splitOnP {α : Type} (p : α → Bool) (as : List α) : (as.splitOnP p).length = as.countP p + 1 := by
  induction as with
  | nil => rfl
  | cons a as ih =>
      rw [List.splitOnP_cons_eq_if_modifyHead, List.countP_cons]
      split
      · rw [List.length_cons, ih]
      · rw [List.length_modifyHead, ih]

theorem notMem_of_mem_splitOn {sep : Char} {cs piece : List Char} (h : piece ∈ splitOn sep cs) :
    sep ∉ piece := by
  rw [splitOn_eq, List.splitOn_eq_splitOnP] at h
  intro hsep
  simpa using notMem_of_mem_splitOnP h sep hsep

/-! ## Pieces in their places -/

/-- `piece` stands in a text between `before` and `after`, as one of the pieces that `p` splits the text into. -/
structure Piece (p : Char → Bool) (cs before piece after : List Char) : Prop where
  text : cs = before ++ (piece ++ after)
  inner : ∀ c ∈ piece, p c = false
  start : ∀ c ∈ before.getLast?, p c = true
  stop : ∀ c ∈ after.head?, p c = true

variable {p q : Char → Bool} {cs before piece after : List Char}

/-- Behind a separator or at the beginning, the first piece of a text is in front. -/
theorem splitOnP_piece (inner : ∀ c ∈ piece, p c = false) (stop : ∀ c ∈ after.head?, p c = true) :
    ∃ rest, (piece ++ after).splitOnP p = piece :: rest := by
  cases after with
  | nil => exact ⟨[], by rw [List.append_nil, List.splitOnP_eq_singleton inner]⟩
  | cons c after =>
      exact ⟨_, List.splitOnP_append_cons_of_forall_mem inner c (stop c rfl) after⟩

/-- The number of a piece is the number of separators before it. -/
theorem Piece.getElem? (h : Piece p cs before piece after) : (cs.splitOnP p)[before.countP p]? = some piece := by
  obtain ⟨rest, hrest⟩ := splitOnP_piece h.inner h.stop
  rw [h.text]
  cases hlast : before.getLast? with
  | none =>
      obtain rfl := List.getLast?_eq_none_iff.mp hlast
      rw [List.nil_append, hrest]
      rfl
  | some sep =>
      have hsep : p sep = true := h.start sep hlast
      obtain ⟨front, rfl⟩ := List.getLast?_eq_some_iff.mp hlast
      have hcount : (front ++ [sep]).countP p = (front.splitOnP p).length := by
        rw [length_splitOnP, List.countP_append, List.countP_singleton, if_pos hsep]
      rw [List.append_assoc, List.singleton_append, List.splitOnP_append_cons front _ hsep, hcount, hrest,
        List.getElem?_append_right (Nat.le_refl _), Nat.sub_self]
      rfl

theorem Piece.cons {c : Char} (h : Piece p cs before piece after) (hc : before = [] → p c = true) :
    Piece p (c :: cs) (c :: before) piece after := by
  refine ⟨by rw [h.text]; rfl, h.inner, ?_, h.stop⟩
  cases before with
  | nil => simpa using hc rfl
  | cons b before =>
      rw [List.getLast?_cons_cons]
      exact h.start

theorem Piece.eq_nil (h : Piece p cs before piece after) (h0 : before.countP p = 0) : before = [] := by
  cases hlast : before.getLast? with
  | none => exact List.getLast?_eq_none_iff.mp hlast
  | some sep => exact absurd (h.start sep hlast) (List.countP_eq_zero.mp h0 sep (List.mem_of_getLast? hlast))

theorem exists_piece {i : Nat} (h : (cs.splitOnP p)[i]? = some piece) :
    ∃ before after, Piece p cs before piece after ∧ before.countP p = i := by
  induction cs generalizing i piece with
  | nil =>
      rw [List.splitOnP_nil, List.getElem?_singleton] at h
      split at h
      · next hi =>
        cases h
        exact ⟨[], [], ⟨rfl, nofun, nofun, nofun⟩, hi.symm⟩
      · cases h
  | cons c cs ih =>
      rw [List.splitOnP_cons_eq_if_modifyHead] at h
      cases hc : p c with
      | true =>
          rw [if_pos hc] at h
          cases i with
          | zero =>
              cases h
              exact ⟨[], c :: cs, ⟨rfl, nofun, nofun, by simpa using hc⟩, rfl⟩
          | succ i =>
              obtain ⟨before, after, hpiece, rfl⟩ := ih h
              exact ⟨c :: before, after, hpiece.cons fun _ => hc, by rw [List.countP_cons_of_pos hc]⟩
      | false =>
          rw [if_neg (by simp [hc])] at h
          obtain ⟨first, rest, hsplit⟩ := List.exists_cons_of_ne_nil (List.splitOnP_ne_nil p cs)
          rw [hsplit] at h ih
          cases i with
          | zero =>
              cases h
              obtain ⟨before, after, hpiece, h0⟩ := ih (i := 0) rfl
              obtain rfl := hpiece.eq_nil h0
              exact ⟨[], after, ⟨by rw [hpiece.text]; rfl, List.forall_mem_cons.mpr ⟨hc, hpiece.inner⟩, nofun,
                hpiece.stop⟩, rfl⟩
          | succ i =>
              obtain ⟨before, after, hpiece, hi⟩ := ih (i := i + 1) h
              refine ⟨c :: before, after, hpiece.cons fun hb => ?_, by rw [List.countP_cons_of_neg (by simp [hc]), hi]⟩
              rw [hb] at hi
              cases hi

theorem exists_reach (q : Char → Bool) (cs : List Char) :
    ∃ reach rest, cs = reach ++ rest ∧ (∀ c ∈ reach, q c = false) ∧ ∀ c ∈ rest.head?, q c = true := by
  refine ⟨cs.takeWhile (!q ·), cs.dropWhile (!q ·), List.takeWhile_append_dropWhile.symm, ?_, ?_⟩
  · intro c hc
    simpa using List.all_eq_true.mp List.all_takeWhile c hc
  · intro c hc
    have h := List.head?_dropWhile_not (!q ·) cs
    rw [hc] at h
    simpa using h

/-- Fewer separators make longer pieces. -/
theorem Piece.widen (h : Piece p cs before piece after) (hqp : ∀ c, q c = true → p c = true) :
    ∃ front left right back, before = front ++ left ∧ after = right ++ back ∧ (∀ c ∈ left, q c = false) ∧
      Piece q cs front (left ++ (piece ++ right)) back := by
  have hpiece : ∀ c ∈ piece, q c = false := by
    intro c hc
    exact Bool.eq_false_iff.mpr fun hq => Bool.eq_false_iff.mp (h.inner c hc) (hqp c hq)
  obtain ⟨left, front, hbefore, hleft, hfront⟩ := exists_reach q before.reverse
  obtain ⟨right, back, rfl, hright, hback⟩ := exists_reach q after
  have hbefore : before = front.reverse ++ left.reverse := by
    rw [← List.reverse_append, ← hbefore, List.reverse_reverse]
  have hleft : ∀ c ∈ left.reverse, q c = false := fun c hc => hleft c (List.mem_reverse.mp hc)
  refine ⟨front.reverse, left.reverse, right, back, hbefore, rfl, hleft, ?_, ?_, ?_, hback⟩
  · rw [h.text, hbefore]
    simp only [List.append_assoc]
  · simp only [List.forall_mem_append]
    exact ⟨hleft, hpiece, hright⟩
  · rw [List.getLast?_reverse]
    exact hfront

/-! ## Lines -/

theorem joinReturns_of_notMem (h : '\r' ∉ cs) : joinReturns cs = cs := by
  induction cs with
  | nil => rfl
  | cons c cs ih =>
      rw [List.mem_cons, not_or] at h
      rw [joinReturns_cons, if_neg fun hr => h.1 hr.1.symm, ih h.2]

theorem unifyNewlines_of_notMem (h : '\r' ∉ cs) : unifyNewlines cs = cs := by
  rw [unifyNewlines, joinReturns_of_notMem h]
  have hkeep : ∀ c ∈ cs, (if c = '\r' then '\n' else c) = c := by
    intro c hc
    refine if_neg ?_
    rintro rfl
    exact h hc
  exact (List.map_congr_left hkeep).trans (List.map_id' cs)

/-- The lines of a text are its pieces, but for an empty one at the end. -/
theorem splitOnP_isBreak (h : '\r' ∉ cs) :
    ∃ tail, cs.splitOnP isBreak = lines cs ++ tail ∧ (tail = [] ∨ tail = [[]]) := by
  rw [lines, joinReturns_of_notMem h]
  clear h
  induction cs with
  | nil => exact ⟨[[]], rfl, .inr rfl⟩
  | cons c cs ih =>
      obtain ⟨tail, hsplit, htail⟩ := ih
      rw [List.splitOnP_cons_eq_if_modifyHead, List.foldr_cons, hsplit]
      split
      · exact ⟨tail, rfl, htail⟩
      · cases hlines : cs.foldr (fun c ls => if isBreak c then [] :: ls else consFirst c ls) [] with
        | nil =>
            rw [hlines, List.nil_append] at hsplit
            rcases htail with rfl | rfl
            · exact absurd hsplit (List.splitOnP_ne_nil isBreak cs)
            · exact ⟨[], rfl, .inl rfl⟩
        | cons line rest => exact ⟨tail, rfl, htail⟩

theorem isBreak_of_mem_lines {line : List Char} (h : line ∈ lines cs) : ∀ c ∈ line, isBreak c = false := by
  rw [lines] at h
  generalize joinReturns cs = joined at h
  induction joined generalizing line with
  | nil => cases h
  | cons c cs ih =>
      rw [List.foldr_cons] at h
      split at h
      · rcases List.mem_cons.mp h with rfl | h
        · exact List.forall_mem_nil _
        · exact ih h
      · next hc =>
        have hc : isBreak c = false := Bool.eq_false_iff.mpr hc
        cases hrest : cs.foldr (fun c ls => if isBreak c then [] :: ls else consFirst c ls) [] with
        | nil =>
            rw [hrest, consFirst, List.mem_singleton] at h
            rw [h]
            exact List.forall_mem_singleton.mpr hc
        | cons first rest =>
            rw [hrest] at h ih
            rcases List.mem_cons.mp h with rfl | h
            · exact List.forall_mem_cons.mpr ⟨hc, ih List.mem_cons_self⟩
            · exact ih (List.mem_cons_of_mem first h)

theorem ne_return_of_isBreak {c : Char} (h : isBreak c = false) : c ≠ '\r' := by
  rintro rfl
  cases h

theorem joinReturns_append {line : List Char} (h : ∀ c ∈ line, isBreak c = false) (cs : List Char) :
    joinReturns (line ++ cs) = line ++ joinReturns cs := by
  induction line with
  | nil => rfl
  | cons c line ih =>
      obtain ⟨hc, hline⟩ := List.forall_mem_cons.mp h
      rw [List.cons_append, joinReturns_cons, if_neg fun hr => ne_return_of_isBreak hc hr.1, ih hline, List.cons_append]

theorem lines_append {line : List Char} (h : ∀ c ∈ line, isBreak c = false) (cs : List Char) :
    lines (line ++ '\n' :: cs) = line :: lines cs := by
  rw [lines, joinReturns_append h, joinReturns_cons, if_neg fun hr => absurd hr.1 (by decide), List.foldr_append,
    List.foldr_cons, if_pos (by decide)]
  induction line with
  | nil => rfl
  | cons c line ih =>
      obtain ⟨hc, hline⟩ := List.forall_mem_cons.mp h
      rw [List.foldr_cons, ih hline, hc]
      rfl

theorem lines_flatMap {pieces : List (List Char)} (h : ∀ piece ∈ pieces, ∀ c ∈ piece, isBreak c = false) :
    lines (pieces.flatMap (· ++ ['\n'])) = pieces := by
  induction pieces with
  | nil => rfl
  | cons piece pieces ih =>
      obtain ⟨hpiece, hpieces⟩ := List.forall_mem_cons.mp h
      rw [List.flatMap_cons, List.append_assoc, List.singleton_append, lines_append hpiece, ih hpieces]

/-- Behind the last line feed there is an empty piece. -/
theorem splitOn_flatMap {pieces : List (List Char)} (h : ∀ piece ∈ pieces, '\n' ∉ piece) :
    (pieces.flatMap (· ++ ['\n'])).splitOn '\n' = pieces ++ [[]] := by
  induction pieces with
  | nil => rfl
  | cons piece pieces ih =>
      obtain ⟨hpiece, hpieces⟩ := List.forall_mem_cons.mp h
      rw [List.flatMap_cons, List.append_assoc, List.singleton_append, List.splitOn_eq_splitOnP,
        List.splitOnP_append_cons _ _ (by rfl), ← List.splitOn_eq_splitOnP, ← List.splitOn_eq_splitOnP,
        List.splitOn_eq_singleton hpiece, ih hpieces]
      rfl

end Backmap.Text
