import Backmap.Proofs.Marker
import Backmap.Proofs.Record.Grammar
import Mathlib.Data.List.Basic

/-!
# The grammar of marker lines

A path may hold colons, blanks and digits, so that more than one colon of a line may seem to end it. How the end is
chosen makes a marker that was written with its path, its number and perhaps a column the one that is read.
-/

namespace Backmap.Marker

open Text Record

variable {cs rest path digits digits' back more taken token : List Char} {column column' : Option (List Char)}

/-! ## Positions -/

/-- The text is `:line[:column]` with blanks behind it. -/
structure Position (cs digits : List Char) (column : Option (List Char)) : Prop where
  number : Run isDigit digits
  behind : ∀ column' ∈ column, Run isDigit column'
  text : ∃ trail, (∀ c ∈ trail, isBlank c = true) ∧ cs = ':' :: (digits ++ (columnText column ++ trail))

theorem head_trail {trail : List Char} (h : ∀ c ∈ trail, isBlank c = true) : ∀ c ∈ trail.head?, isDigit c = false :=
  fun c hc => isDigit_of_isBlank (h c (List.mem_of_head? hc))

theorem colon_notMem_digits (h : Run isDigit digits) : ':' ∉ digits :=
  fun hcolon => absurd (h.2 ':' hcolon) (by decide)

theorem colon_notMem {trail : List Char} (hdigits : Run isDigit digits) (htrail : ∀ c ∈ trail, isBlank c = true) :
    ':' ∉ digits ++ trail := by
  rw [List.mem_append, not_or]
  exact ⟨colon_notMem_digits hdigits, fun hcolon => absurd (htrail ':' hcolon) (by decide)⟩

theorem Position.tail?_eq (h : Position cs digits column) : tail? cs = some digits := by
  obtain ⟨⟨hne, hdigits⟩, hcolumn, trail, htrail, rfl⟩ := h
  cases column with
  | none =>
      simp only [tail?, columnText, List.nil_append, takeWhile_run hdigits (head_trail htrail),
        dropWhile_run hdigits (head_trail htrail), hne, allBlank_iff.mpr htrail, if_false, if_true]
  | some column =>
      obtain ⟨hne', hdigits'⟩ := hcolumn column rfl
      have hcolon : allBlank (':' :: (column ++ trail)) = false := rfl
      simp only [tail?, columnText, List.cons_append, takeWhile_run hdigits (head_colon _),
        dropWhile_run hdigits (head_colon _), hne, if_false, hcolon, Bool.false_eq_true,
        takeWhile_run hdigits' (head_trail htrail), dropWhile_run hdigits' (head_trail htrail), hne', ne_eq,
        not_false_eq_true, allBlank_iff.mpr htrail, and_self, if_true]

theorem exists_position (h : tail? cs = some digits) : ∃ column, Position cs digits column := by
  unfold tail? at h
  split at h
  · next cs =>
    have hsplit := List.takeWhile_append_dropWhile (p := isDigit) (l := cs)
    dsimp only at h
    split at h
    · cases h
    · next hline =>
      split at h
      · next hblank =>
        cases h
        exact ⟨none, run_takeWhile hline, nofun, _, allBlank_iff.mp hblank, by rw [columnText, List.nil_append, hsplit]⟩
      · split at h
        · next rest hrest =>
          have hsplit' := List.takeWhile_append_dropWhile (p := isDigit) (l := rest)
          split at h
          · next hcolumn =>
            cases h
            refine ⟨some (rest.takeWhile isDigit), run_takeWhile hline, ?_, _, allBlank_iff.mp hcolumn.2, ?_⟩
            · rintro column ⟨⟩
              exact run_takeWhile hcolumn.1
            · rw [columnText, List.cons_append, hsplit', ← hrest, hsplit]
          · cases h
        · cases h
  · cases h

/-- Where a position ends a text in two ways, the longer one has a column: it is the number of the shorter one, which
has none. -/
theorem Position.eq_colon (h : Position rest digits column) (h' : Position (back ++ rest) digits' column')
    (hback : back ≠ []) : back = ':' :: digits' ∧ column = none := by
  obtain ⟨hdigits, -, trail, -, rfl⟩ := h
  obtain ⟨hdigits', hcolumn', trail', htrail', htext⟩ := h'
  obtain ⟨b, back, rfl⟩ := List.exists_cons_of_ne_nil hback
  rw [List.cons_append, List.cons.injEq] at htext
  obtain ⟨rfl, htext⟩ := htext
  cases column' with
  | none =>
      have hnone := colon_notMem hdigits' htrail'
      rw [columnText, List.nil_append] at htext
      rw [← htext] at hnone
      simp at hnone
  | some column' =>
      have hlast := colon_notMem (hcolumn' column' rfl) htrail'
      obtain ⟨rfl, -, hend⟩ := (List.append_cons_inj_of_notMem (colon_notMem_digits hdigits') hlast).mp htext.symm
      refine ⟨rfl, ?_⟩
      cases column with
      | none => rfl
      | some column =>
          rw [hend] at hlast
          simp [columnText] at hlast

/-! ## Paths -/

/-- Neither the first nor the last character is blank. -/
def IsPath (path : List Char) : Prop :=
  (∃ c ∈ path.head?, isBlank c = false) ∧ ∃ c ∈ path.getLast?, isBlank c = false

def EndsInNumber (path : List Char) : Prop := ∃ front digits, Run isDigit digits ∧ path = front ++ ':' :: digits

theorem tail?_of_notMem (h : ':' ∉ cs) : tail? cs = none := by
  cases cs with
  | nil => rfl
  | cons c cs =>
      unfold tail?
      split
      · next heq =>
        cases heq
        exact absurd List.mem_cons_self h
      · rfl

section

-- only with blanks left closed does the search unfold by one character
seal Text.isBlank

theorem longer?_cons (taken : List Char) (c : Char) (cs : List Char) :
    longer? taken (c :: cs) = match if isBlank c then none else tail? cs with
      | some digits => some ((c :: taken).reverse, digits)
      | none => longer? (c :: taken) cs := rfl

end

theorem longer?_of_notMem (h : ':' ∉ cs.tail) : longer? taken cs = none := by
  induction cs generalizing taken with
  | nil => rfl
  | cons c cs ih =>
      rw [List.tail_cons] at h
      have hrest : longer? (c :: taken) cs = none := ih fun hcolon => h (List.mem_of_mem_tail hcolon)
      simp only [longer?_cons, tail?_of_notMem h, ite_self, hrest]

theorem longer?_eq_some (hlast : ∃ c ∈ more.getLast?, isBlank c = false) (hrest : tail? rest = some digits)
    (hnone : ∀ back, back <:+ more → back ≠ [] → tail? (back ++ rest) = none) :
    longer? taken (more ++ rest) = some (taken.reverse ++ more, digits) := by
  induction more generalizing taken with
  | nil =>
      obtain ⟨c, ⟨⟩, -⟩ := hlast
  | cons c more ih =>
      cases more with
      | nil =>
          have hblank : isBlank c = false := by simpa using hlast
          simp [longer?_cons, hblank, hrest]
      | cons d more =>
          have hskip : tail? (d :: more ++ rest) = none := hnone _ (List.suffix_cons c _) (by simp)
          have hlonger : longer? (c :: taken) (d :: more ++ rest) = some ((c :: taken).reverse ++ d :: more, digits) :=
            ih (by simpa using hlast) fun back hback => hnone back (hback.trans (List.suffix_cons c _))
          rw [List.cons_append, longer?_cons, hskip, ite_self]
          simpa using hlonger

/-- A path is read up to its end, if no colon in it can be taken for the end: there is no number behind the last one, or
a column shows which colon it is. A path of one character is not looked for before a longer one. -/
theorem pathAndLine?_eq_some (hpath : IsPath path) (hrest : Position rest digits column)
    (hnone : column = none → ¬ EndsInNumber path) (hsome : column ≠ none → 2 ≤ path.length) :
    pathAndLine? (path ++ rest) = some (path, digits) := by
  have hearlier : ∀ back, back <:+ path → back ≠ [] → tail? (back ++ rest) = none := by
    rintro back ⟨front, rfl⟩ hback
    cases htail : tail? (back ++ rest) with
    | none => rfl
    | some digits' =>
        obtain ⟨column', hposition⟩ := exists_position htail
        obtain ⟨rfl, hcolumn⟩ := hrest.eq_colon hposition hback
        exact absurd ⟨front, digits', hposition.number, rfl⟩ (hnone hcolumn)
  obtain ⟨⟨c, hc, hblank⟩, hlast⟩ := hpath
  obtain ⟨more, rfl⟩ : ∃ more, path = c :: more := List.head?_eq_some_iff.mp hc
  cases more with
  | nil =>
      have hcolumn : column = none := by
        by_contra hne
        exact absurd (hsome hne) (by simp)
      subst hcolumn
      have hposition := hrest.tail?_eq
      obtain ⟨hdigits, -, trail, htrail, rfl⟩ := hrest
      have hlonger : longer? [c] (':' :: (digits ++ (columnText none ++ trail))) = none := by
        apply longer?_of_notMem
        rw [List.tail_cons, columnText, List.nil_append]
        exact colon_notMem hdigits htrail
      simp [pathAndLine?, hblank, hlonger, hposition]
  | cons d more =>
      have hlonger : longer? [c] (d :: more ++ rest) = some ([c].reverse ++ d :: more, digits) :=
        longer?_eq_some (by simpa using hlast) hrest.tail?_eq fun back hback =>
          hearlier back (hback.trans (List.suffix_cons c _))
      rw [List.cons_append, pathAndLine?, hlonger]
      simp [hblank]

theorem not_endsInNumber (h : ':' ∉ path) : ¬ EndsInNumber path := by
  rintro ⟨front, digits, -, rfl⟩
  simp at h

/-! ## Declarations -/

/-- A marker as it is written on a line. -/
structure Declaration where
  indent : List Char
  path : List Char
  digits : List Char
  /-- The number that the digits spell. -/
  line : Nat
  column : Option (List Char)
  trail : List Char

namespace Declaration

def text (token : List Char) (d : Declaration) : List Char :=
  d.indent ++ (token ++ ' ' :: (d.path ++ ':' :: (d.digits ++ (columnText d.column ++ d.trail))))

def marker (d : Declaration) (i : Nat) : Marker := ⟨i, String.ofList d.path, d.line⟩

/-- The parts are what they stand for, and the end of the path can be told. -/
structure Proper (d : Declaration) : Prop where
  indent : ∀ c ∈ d.indent, isBlank c = true
  path : IsPath d.path
  digits : Run isDigit d.digits
  line : Numeral.value d.digits = d.line
  column : ∀ column ∈ d.column, Run isDigit column
  trail : ∀ c ∈ d.trail, isBlank c = true
  numberless : d.column = none → ¬ EndsInNumber d.path
  long : d.column ≠ none → 2 ≤ d.path.length

variable {d : Declaration}

theorem Proper.parts?_text (hd : d.Proper) (htoken : ∃ c ∈ token.head?, isBlank c = false) :
    parts? token (trimLeft (d.text token)) = some (d.path, d.digits) := by
  obtain ⟨c, hc, hblank⟩ := htoken
  obtain ⟨token, rfl⟩ : ∃ rest, token = c :: rest := List.head?_eq_some_iff.mp hc
  have hindent : trimLeft (d.text (c :: token)) = c :: token ++ ' ' ::
      (d.path ++ ':' :: (d.digits ++ (columnText d.column ++ d.trail))) := by
    refine dropWhile_run hd.indent ?_
    rintro c ⟨⟩
    exact hblank
  have hgap : trimLeft (' ' :: (d.path ++ ':' :: (d.digits ++ (columnText d.column ++ d.trail)))) =
      d.path ++ ':' :: (d.digits ++ (columnText d.column ++ d.trail)) := by
    obtain ⟨⟨c, hc, hblank⟩, -⟩ := hd.path
    obtain ⟨path, hpath⟩ : ∃ path, d.path = c :: path := List.head?_eq_some_iff.mp hc
    refine dropWhile_run (show ∀ c ∈ [' '], isBlank c = true from allBlank_iff.mp rfl) ?_
    rw [hpath]
    rintro c ⟨⟩
    exact hblank
  have hposition : Position (':' :: (d.digits ++ (columnText d.column ++ d.trail))) d.digits d.column :=
    ⟨hd.digits, hd.column, d.trail, hd.trail, rfl⟩
  have hspace : isBlank ' ' = true := by decide
  rw [hindent, parts?, after?_append]
  simp only [hspace, if_true, hgap]
  exact pathAndLine?_eq_some hd.path hposition hd.numberless hd.long

theorem Proper.reads (hd : d.Proper) (htoken : ∃ c ∈ token.head?, isBlank c = false) (i : Nat) :
    Reads token (d.text token) (d.marker i) :=
  ⟨d.path, d.digits, hd.parts?_text htoken, rfl, by rw [hd.line]; rfl⟩

theorem Proper.readable_iff (hd : d.Proper) (htoken : ∃ c ∈ token.head?, isBlank c = false) :
    Readable token (d.text token) ↔ d.digits.length ≤ Numeral.limit := by
  simp [Readable, hd.parts?_text htoken]

end Declaration

/-- A declared marker is read back. The markers of the text it stands in can be read exactly if no other line has a
number that is too long; then the declared one is among them, no other has its place, and they are in the order of the
lines. -/
theorem findAll_declared {text token : String} {d : Declaration} {i : Nat}
    (htoken : ∃ c ∈ token.toList.head?, isBlank c = false) (hd : d.Proper) (hfits : d.digits.length ≤ Numeral.limit)
    (hline : (lines text.toList)[i]? = some (d.text token.toList)) :
    ((∃ markers, findAll text token = .ok markers) ↔
        ∀ k ≠ i, ∀ line ∈ (lines text.toList)[k]?, Readable token.toList line) ∧
      ∀ markers, findAll text token = .ok markers →
        d.marker i ∈ markers ∧ (∀ m ∈ markers, m.index = i → m = d.marker i) ∧
          markers.Pairwise (·.index < ·.index) := by
  constructor
  · refine (ofLines_ok_iff 0).trans ⟨fun h k _ line hk => h line (List.mem_of_getElem? hk), fun h line hmem => ?_⟩
    obtain ⟨k, hk⟩ := List.mem_iff_getElem?.mp hmem
    by_cases hki : k = i
    · rw [hki, hline] at hk
      cases hk
      exact (hd.readable_iff htoken).mpr hfits
    · exact h k hki line hk
  · intro markers h
    refine ⟨mem_ofLines_of_reads h hline (hd.reads htoken i) (by simp [Declaration.marker]), fun m hm hindex => ?_,
      ofLines_increasing h⟩
    obtain ⟨k, line, hk, hread, hindex'⟩ := mem_ofLines h hm
    have hki : k = i := by omega
    rw [hki, hline] at hk
    cases hk
    exact hread.eq (hd.reads htoken i) hindex

/-- A path with a drive and a number at its end, and a column behind the line. -/
theorem findAll_declared_column :
    (lines "x\n\t//line C:/a b:12:42:7 \n".toList)[1]? = some "\t//line C:/a b:12:42:7 ".toList ∧
      ∃ markers, findAll "x\n\t//line C:/a b:12:42:7 \n" "//line" = .ok markers ∧ ⟨1, "C:/a b:12", 42⟩ ∈ markers ∧
        ∀ m ∈ markers, m.index = 1 → m = ⟨1, "C:/a b:12", 42⟩ := by
  have hd : Declaration.Proper ⟨['\t'], "C:/a b:12".toList, ['4', '2'], 42, some ['7'], [' ']⟩ := by
    refine ⟨allBlank_iff.mp rfl, ⟨⟨'C', rfl, rfl⟩, ⟨'2', rfl, rfl⟩⟩, ⟨nofun, List.all_eq_true.mp rfl⟩, rfl, ?_,
      allBlank_iff.mp rfl, nofun, ?_⟩
    · rintro column ⟨⟩
      exact ⟨nofun, List.all_eq_true.mp rfl⟩
    · intro _
      decide
  have hline : (lines "x\n\t//line C:/a b:12:42:7 \n".toList)[1]? = some "\t//line C:/a b:12:42:7 ".toList := by rfl
  have htoken : ∃ c ∈ "//line".toList.head?, isBlank c = false := ⟨'/', rfl, rfl⟩
  obtain ⟨hreturns, hmarkers⟩ := findAll_declared htoken hd (by decide) hline
  have hothers : ∀ k ≠ 1, ∀ line ∈ (lines "x\n\t//line C:/a b:12:42:7 \n".toList)[k]?,
      Readable "//line".toList line := by
    intro k hk line hline
    match k with
    | 0 =>
        cases hline
        intro path digits hp
        cases hp
    | 1 => exact absurd rfl hk
    | k + 2 => cases hline
  obtain ⟨markers, h⟩ := hreturns.mpr hothers
  exact ⟨hline, markers, h, (hmarkers markers h).1, (hmarkers markers h).2.1⟩

/-! ## Numbers that are too long -/

theorem Declaration.proper_plain (hpath : IsPath path) (hcolon : ':' ∉ path) (hdigits : Run isDigit digits) :
    Declaration.Proper ⟨[], path, digits, Numeral.value digits, none, []⟩ :=
  ⟨nofun, hpath, hdigits, rfl, nofun, nofun, fun _ => not_endsInNumber hcolon, fun hne => absurd rfl hne⟩

theorem unbroken_of_all (h : cs.all (!isBreak ·) = true) : ∀ c ∈ cs, isBreak c = false := by
  intro c hc
  simpa using List.all_eq_true.mp h c hc

/-- Two markers, the second with a number of `n` nines. -/
def overlong (n : Nat) : String :=
  String.ofList ("//line a.go:1".toList ++ '\n' :: ("//line b.go:".toList ++ List.replicate n '9' ++ ['\n']))

theorem lines_overlong (n : Nat) :
    lines (overlong n).toList = ["//line a.go:1".toList, "//line b.go:".toList ++ List.replicate n '9'] := by
  have htext : (overlong n).toList =
      "//line a.go:1".toList ++ '\n' :: ("//line b.go:".toList ++ List.replicate n '9' ++ ['\n']) :=
    String.toList_ofList
  have hstart : ∀ c ∈ "//line b.go:".toList, isBreak c = false := unbroken_of_all rfl
  rw [htext, lines_append (unbroken_of_all rfl), lines_append]
  · rfl
  · intro c hc
    rcases List.mem_append.mp hc with hc | hc
    · exact hstart c hc
    · rw [List.eq_of_mem_replicate hc]
      decide

theorem findAll_overlong {n : Nat} (h : Numeral.limit < n) :
    findAll (overlong n) "//line" = .error (.numeral (.tooLong n)) := by
  have hdigits : Run isDigit (List.replicate n '9') := by
    refine ⟨fun hnil => ?_, fun c hc => ?_⟩
    · rw [List.replicate_eq_nil_iff] at hnil
      omega
    · rw [List.eq_of_mem_replicate hc]
      decide
  have hpath : IsPath "b.go".toList := ⟨⟨'b', rfl, rfl⟩, ⟨'o', rfl, rfl⟩⟩
  have hd := Declaration.proper_plain hpath (by decide) hdigits
  have htoken : ∃ c ∈ "//line".toList.head?, isBlank c = false := ⟨'/', rfl, rfl⟩
  have hfirst : parts? "//line".toList (trimLeft "//line a.go:1".toList) = some ("a.go".toList, ['1']) := by rfl
  have hsecond : parts? "//line".toList (trimLeft ("//line b.go:".toList ++ List.replicate n '9')) =
      some ("b.go".toList, List.replicate n '9') := by
    simpa [Declaration.text, columnText] using hd.parts?_text htoken
  have hlong : ¬ (List.replicate n '9').length ≤ Numeral.limit := by
    rw [List.length_replicate]
    omega
  rw [findAll, lines_overlong, ofLines, hfirst]
  simp only [ofLines, hsecond, Numeral.ofDigits_of_not_le hlong, List.length_replicate]
  rfl

/-- The first line is declared as it should be, but the number on the second keeps both from being read. -/
theorem findAll_long_number :
    (lines (overlong 4301).toList)[0]? =
        some (Declaration.text "//line".toList ⟨[], "a.go".toList, ['1'], 1, none, []⟩) ∧
      Declaration.Proper ⟨[], "a.go".toList, ['1'], 1, none, []⟩ ∧
      findAll (overlong 4301) "//line" = .error (.numeral (.tooLong 4301)) := by
  refine ⟨?_, ?_, findAll_overlong (by decide)⟩
  · rw [lines_overlong]
    rfl
  · exact Declaration.proper_plain ⟨⟨'a', rfl, rfl⟩, ⟨'o', rfl, rfl⟩⟩ (by decide) ⟨nofun, List.all_eq_true.mp rfl⟩

end Backmap.Marker
