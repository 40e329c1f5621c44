import Backmap.Proofs.Directive.Grammar
import Backmap.Proofs.Text.Lines

/-!
# Directives without an expression

A comment with nothing but blanks behind its keyword is read as a directive all the same: where there is more than one
of them, the last is taken for the expression and trimmed away.
-/

namespace Backmap.Directive

open Text

variable {k : Kind} {a : Action} {c : Char} {cs rest args e body blanks : List Char}
  {asked : Option (Action × List Char)}

/-! ## Empty expressions -/

/-- Behind blanks stands an action, and between its comma and its dash a line ends. -/
def Parted (rest : List Char) : Prop :=
  ∃ blanks gap more, (∀ c ∈ blanks, isBlank c = true) ∧ (∀ c ∈ gap, isBlank c = true) ∧ '\n' ∈ gap ∧
    rest = blanks ++ ',' :: (gap ++ '-' :: more)

/-- Nothing but blanks stands behind the keyword, or only an action in two parts. -/
def Hollow (rest : List Char) : Prop := (∀ c ∈ rest, isBlank c = true) ∨ Parted rest

/-- Behind a blank that follows an expression there are only more of them. -/
theorem Ending.blank (h : Ending k (c :: cs) asked) (hc : isBlank c = true) : ∀ d ∈ cs, isBlank d = true := by
  cases h with
  | plain htrail => exact fun d hd => htrail d (List.mem_cons_of_mem c hd)
  | asks => exact absurd hc (by decide)

theorem Arguments.oneLine (h : Arguments cs args) :
    ∃ front trail, cs = front ++ trail ∧ '\n' ∉ front ∧ ∀ c ∈ trail, isBlank c = true := by
  cases h with
  | bare htrail => exact ⟨[], _, rfl, List.not_mem_nil, htrail⟩
  | @given args trail _ hline htrail =>
      exact ⟨'(' :: (args ++ [')']), trail, by simp, by simp [hline], htrail⟩

theorem newline_notMem_name (a : Action) : '\n' ∉ a.name.toList := by
  cases a <;> decide

/-- An action behind an expression, if it is all on one line, can be read as an expression of its own. -/
theorem Ending.splits (h : Ending k (c :: cs) asked) (hc : isBlank c = false) :
    ∃ gap more, (∀ c ∈ gap, isBlank c = true) ∧ c :: cs = ',' :: (gap ++ '-' :: more) ∧
      ('\n' ∉ gap → ∃ e, Splits k (c :: cs) e none) := by
  cases h with
  | plain htrail => exact absurd (htrail c List.mem_cons_self) (Bool.eq_false_iff.mp hc)
  | @asks a gap cs args ha hgap hargs =>
      refine ⟨gap, a.name.toList ++ cs, hgap, rfl, fun hline => ?_⟩
      obtain ⟨front, trail, rfl, hfront, htrail⟩ := hargs.oneLine
      refine ⟨',' :: (gap ++ '-' :: (a.name.toList ++ front)), List.cons_ne_nil _ _, ?_, trail, by simp, .plain htrail⟩
      simp [hline, hfront, newline_notMem_name a]

theorem not_splits_parted {gap more : List Char} (hgap : ∀ c ∈ gap, isBlank c = true) (hparted : '\n' ∈ gap) :
    ¬ Splits k (',' :: (gap ++ '-' :: more)) e asked := by
  rintro ⟨hne, hline, tail, htext, hending⟩
  obtain ⟨d, e, rfl⟩ := List.exists_cons_of_ne_nil hne
  have hline : '\n' ∉ e := fun h => hline (List.mem_cons_of_mem d h)
  rcases List.append_eq_append_iff.mp (List.cons.inj htext).2 with ⟨extra, rfl, -⟩ | ⟨left, rfl, rfl⟩
  · exact hline (List.mem_append_left extra hparted)
  · -- the expression ends before the end of its line, so that blanks follow and then the dash
    cases left with
    | nil => exact hline (by simpa using hparted)
    | cons b left =>
        have hdash := hending.blank (hgap b (by simp)) '-' (by simp)
        exact absurd hdash (by decide)

/-- If nothing can be read behind all of the blanks, then what is read ends among them. -/
theorem Splits.blank (h : Splits k (blanks ++ body) e asked) (hblanks : ∀ c ∈ blanks, isBlank c = true)
    (hbody : ∀ c ∈ body.head?, isBlank c = false) (hnone : ∀ e' asked', ¬ Splits k body e' asked') :
    (∀ c ∈ e, isBlank c = true) ∧
      (body = [] ∨ ∃ gap more, (∀ c ∈ gap, isBlank c = true) ∧ '\n' ∈ gap ∧ body = ',' :: (gap ++ '-' :: more)) := by
  obtain ⟨hne, hline, tail, htext, hending⟩ := h
  obtain ⟨left, rfl, rfl⟩ : ∃ left, blanks = e ++ left ∧ tail = left ++ body := by
    rcases List.append_eq_append_iff.mp htext with ⟨extra, rfl, rfl⟩ | hleft
    · have hextra : extra = [] := by
        by_contra hextra
        exact hnone extra asked ⟨hextra, fun h => hline (List.mem_append_right blanks h), tail, rfl, hending⟩
      subst hextra
      exact ⟨[], by simp, rfl⟩
    · exact hleft
  refine ⟨fun c hc => hblanks c (List.mem_append_left left hc), ?_⟩
  cases body with
  | nil => exact .inl rfl
  | cons c body =>
      have hc : isBlank c = false := hbody c rfl
      cases left with
      | nil =>
          obtain ⟨gap, more, hgap, htext, hsplits⟩ := Ending.splits hending hc
          refine .inr ⟨gap, more, hgap, ?_, htext⟩
          by_contra hline
          obtain ⟨e', he'⟩ := hsplits hline
          exact hnone e' none he'
      | cons b left =>
          have hblank := hending.blank (hblanks b (by simp)) c (by simp)
          exact absurd hblank (Bool.eq_false_iff.mp hc)

theorem Splits.trim_ne_nil (h : Splits k body e asked) (hbody : ∀ c ∈ body.head?, isBlank c = false) : trim e ≠ [] := by
  obtain ⟨hne, -, tail, rfl, -⟩ := h
  obtain ⟨c, e, rfl⟩ := List.exists_cons_of_ne_nil hne
  intro htrim
  exact absurd (trim_eq_nil.mp htrim c List.mem_cons_self) (Bool.eq_false_iff.mp (hbody c rfl))

/-- Where an expression can be read behind all of the blanks, these are not all there is, and what follows them is no
action in two parts. -/
theorem Splits.not_hollow (h : Splits k body e asked) (hblanks : ∀ c ∈ blanks, isBlank c = true)
    (hbody : ∀ c ∈ body.head?, isBlank c = false) :
    ¬ Hollow (blanks ++ body) := by
  rintro (hblank | ⟨blanks', gap, more, hblanks', hgap, hparted, htext⟩)
  · obtain ⟨hne, -, tail, rfl, -⟩ := h
    obtain ⟨c, e, rfl⟩ := List.exists_cons_of_ne_nil hne
    exact absurd (hblank c (by simp)) (Bool.eq_false_iff.mp (hbody c rfl))
  · have hcomma : ∀ c ∈ (',' :: (gap ++ '-' :: more)).head?, isBlank c = false := by
      rintro c ⟨⟩
      decide
    have hsame := congrArg trimLeft htext
    rw [trimLeft, trimLeft, dropWhile_run hblanks hbody, dropWhile_run hblanks' hcomma] at hsame
    subst hsame
    exact not_splits_parted hgap hparted h

theorem Prefers.trim_eq_nil_iff (h : Prefers k rest e asked) : trim e = [] ↔ Hollow rest := by
  obtain ⟨blanks, body, hrun, rfl, hshortest, hmost⟩ := h
  obtain ⟨more, hbody, hmore, hhead⟩ := exists_dropWhile isBlank body
  generalize body.dropWhile isBlank = left at hbody hhead
  subst hbody
  cases more with
  | nil => exact iff_of_false (hshortest.splits.trim_ne_nil hhead) (hshortest.splits.not_hollow hrun.2 hhead)
  | cons b more =>
      -- a blank was left to the expression, because nothing can be read behind all of them
      have hblanks : ∀ c ∈ blanks ++ b :: more, isBlank c = true := List.forall_mem_append.mpr ⟨hrun.2, hmore⟩
      have hnone : ∀ e' asked', ¬ Splits k left e' asked' :=
        hmost (blanks ++ b :: more) left ⟨by simp, hblanks⟩ (List.append_assoc _ _ _).symm (by simp)
      obtain ⟨hblank, hleft⟩ := hshortest.splits.blank hmore hhead hnone
      refine iff_of_true (trim_eq_nil.mpr hblank) ?_
      rcases hleft with rfl | ⟨gap, more', hgap, hparted, rfl⟩
      · left
        simpa using hblanks
      · exact .inr ⟨blanks ++ b :: more, gap, more', hblanks, hgap, hparted, (List.append_assoc _ _ _).symm⟩

/-! ## Lines with an empty expression -/

/-- The comment that a directive of the kind is read from has `rest` behind its keyword. -/
def Leading (k : Kind) (line rest : List Char) : Prop :=
  First k line rest ∧ (k = .cond → ∀ rest', ¬ First .inco line rest')

theorem exists_empty_iff {line : String} :
    (∃ d, parse? line = some d ∧ d.kind = k ∧ d.expression = "") ↔
      ∃ rest, Leading k line.toList rest ∧ Hollow rest := by
  constructor
  · rintro ⟨d, hparse, rfl, hempty⟩
    obtain ⟨hkind, hcond⟩ := parse?_eq_some_iff.mp hparse
    obtain ⟨-, rest, e, asked, hfirst, hprefers, hexpression⟩ := first_of_ofKind? hkind
    refine ⟨rest, ⟨hfirst, fun hd => ofKind?_eq_none_iff.mp (hcond hd)⟩, hprefers.trim_eq_nil_iff.mp ?_⟩
    rwa [hexpression, ← String.ofList_nil, String.ofList_inj] at hempty
  · rintro ⟨rest, ⟨hfirst, hcond⟩, hhollow⟩
    obtain ⟨d, hkind⟩ := exists_ofKind?_iff.mpr ⟨rest, hfirst⟩
    obtain ⟨rfl, rest', e, asked, hfirst', hprefers, hexpression⟩ := first_of_ofKind? hkind
    obtain rfl := hfirst.unique hfirst'
    refine ⟨d, parse?_eq_some_iff.mpr ⟨hkind, fun hd => ofKind?_eq_none_iff.mpr (hcond hd)⟩, rfl, ?_⟩
    rw [hexpression, hprefers.trim_eq_nil_iff.mpr hhollow, String.ofList_nil]

theorem First.subset {line : List Char} (h : First k line rest) : rest ⊆ line := by
  obtain ⟨cs, hcs, ⟨⟨gap, -, rfl⟩, -⟩, -⟩ := h
  intro c hc
  exact hcs.subset (by simp [hc])

theorem Hollow.blank {text : String} {line : List Char} (h : Hollow rest) (hline : line ∈ lines text.toList)
    (hrest : rest ⊆ line) : ∀ c ∈ rest, isBlank c = true := by
  refine h.resolve_right ?_
  rintro ⟨blanks, gap, more, -, -, hbreak, rfl⟩
  have hmem : '\n' ∈ line := hrest (by simp [hbreak])
  exact absurd (isBreak_of_mem_lines hline '\n' hmem) (by decide)

/-- The directive on a line has an expression exactly if the comment that it is read from is not hollow. So do all
directives of a text exactly if none of these comments has nothing but blanks behind its keyword. -/
theorem expression_ne_empty_iff (line text : String) :
    ((∀ d, parse? line = some d → d.expression ≠ "") ↔ ∀ k rest, Leading k line.toList rest → ¬ Hollow rest) ∧
    ((∀ found ∈ scan text, found.2.expression ≠ "") ↔
      ∀ l ∈ lines text.toList, ∀ k rest, Leading k l rest → ∃ c ∈ rest, isBlank c = false) := by
  constructor
  · constructor
    · intro h k rest hleading hhollow
      obtain ⟨d, hparse, -, hempty⟩ := exists_empty_iff.mpr ⟨rest, hleading, hhollow⟩
      exact h d hparse hempty
    · intro h d hparse hempty
      obtain ⟨rest, hleading, hhollow⟩ := exists_empty_iff.mp ⟨d, hparse, rfl, hempty⟩
      exact h d.kind rest hleading hhollow
  · constructor
    · intro h l hl k rest hleading
      by_contra hnone
      have hblank : ∀ c ∈ rest, isBlank c = true := by simpa using hnone
      rw [← String.toList_ofList (l := l)] at hleading
      obtain ⟨d, hparse, -, hempty⟩ := exists_empty_iff.mpr ⟨rest, hleading, .inl hblank⟩
      obtain ⟨i, hi⟩ := List.mem_iff_getElem?.mp hl
      exact h (i, d) (mem_scan_iff.mpr ⟨l, hi, hparse⟩) hempty
    · rintro h ⟨i, d⟩ hfound hempty
      obtain ⟨l, hi, hparse⟩ := mem_scan_iff.mp hfound
      obtain ⟨rest, hleading, hhollow⟩ := exists_empty_iff.mp ⟨d, hparse, rfl, hempty⟩
      rw [String.toList_ofList] at hleading
      have hl : l ∈ lines text.toList := List.mem_of_getElem? hi
      obtain ⟨c, hc, hink⟩ := h l hl d.kind rest hleading
      exact absurd (hhollow.blank hl hleading.1.subset c hc) (Bool.eq_false_iff.mp hink)

/-- Of two blanks behind the keyword one is taken for the contract. -/
theorem scan_empty_comment :
    parse? "// @inco:  " = some ⟨.inco, "", some .panic, "", false⟩ ∧
      scan "x := f() // @if: \t\n" = [(0, ⟨.cond, "", none, "", true⟩)] := by
  decide

end Backmap.Directive
