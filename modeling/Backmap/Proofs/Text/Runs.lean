import Backmap.Text.Blank
import Backmap.Text.Digit
import Mathlib.Data.List.TakeWhile

/-!
# Runs of characters
-/

namespace Backmap.Text

/-- Characters of one kind, and at least one. -/
def Run (p : Char → Bool) (cs : List Char) : Prop := cs ≠ [] ∧ ∀ c ∈ cs, p c = true

variable {p : Char → Bool} {cs run rest : List Char}

theorem takeWhile_run (hrun : ∀ c ∈ run, p c = true) (hrest : ∀ c ∈ rest.head?, p c = false) :
    (run ++ rest).takeWhile p = run := by
  rw [List.takeWhile_append_of_pos hrun]
  cases rest with
  | nil => simp
  | cons c rest => rw [List.takeWhile_cons_of_neg (by simp [hrest c rfl]), List.append_nil]

theorem dropWhile_run (hrun : ∀ c ∈ run, p c = true) (hrest : ∀ c ∈ rest.head?, p c = false) :
    (run ++ rest).dropWhile p = rest := by
  rw [List.dropWhile_append_of_pos hrun]
  cases rest with
  | nil => rfl
  | cons c rest => rw [List.dropWhile_cons_of_neg (by simp [hrest c rfl])]

theorem run_takeWhile (h : cs.takeWhile p ≠ []) : Run p (cs.takeWhile p) :=
  ⟨h, fun _ hc => List.all_eq_true.mp List.all_takeWhile _ hc⟩

theorem head_dropWhile : ∀ c ∈ (cs.dropWhile p).head?, p c = false := by
  intro c hc
  have h := List.head?_dropWhile_not p cs
  rw [hc] at h
  exact h

theorem exists_dropWhile (p : Char → Bool) (cs : List Char) :
    ∃ run, cs = run ++ cs.dropWhile p ∧ (∀ c ∈ run, p c = true) ∧ ∀ c ∈ (cs.dropWhile p).head?, p c = false :=
  ⟨cs.takeWhile p, List.takeWhile_append_dropWhile.symm, List.all_eq_true.mp List.all_takeWhile, head_dropWhile⟩

theorem dropTailWhile_run (hrun : ∀ c ∈ run, p c = true) (hrest : ∀ c ∈ rest.getLast?, p c = false) :
    dropTailWhile p (rest ++ run) = rest := by
  rw [dropTailWhile, List.reverse_append, dropWhile_run, List.reverse_reverse]
  · exact fun c hc => hrun c (List.mem_reverse.mp hc)
  · rw [List.head?_reverse]
    exact hrest

theorem exists_dropTailWhile (p : Char → Bool) (cs : List Char) :
    ∃ run, cs = dropTailWhile p cs ++ run ∧ (∀ c ∈ run, p c = true) ∧
      ∀ c ∈ (dropTailWhile p cs).getLast?, p c = false := by
  refine ⟨(cs.reverse.takeWhile p).reverse, ?_, ?_, ?_⟩
  · rw [dropTailWhile, ← List.reverse_append, List.takeWhile_append_dropWhile, List.reverse_reverse]
  · exact fun c hc => List.all_eq_true.mp List.all_takeWhile c (List.mem_reverse.mp hc)
  · rw [dropTailWhile, List.getLast?_reverse]
    exact head_dropWhile

theorem dropTailWhile_eq_nil : dropTailWhile p cs = [] ↔ ∀ c ∈ cs, p c = true := by
  rw [dropTailWhile, List.reverse_eq_nil_iff, List.dropWhile_eq_nil_iff]
  simp only [List.mem_reverse]

theorem trim_eq_nil : trim cs = [] ↔ ∀ c ∈ cs, isBlank c = true := by
  rw [trim, trimRight, dropTailWhile_eq_nil, trimLeft]
  constructor
  · intro h c hc
    rw [← List.takeWhile_append_dropWhile (p := isBlank) (l := cs), List.mem_append] at hc
    rcases hc with hc | hc
    · exact List.all_eq_true.mp List.all_takeWhile c hc
    · exact h c hc
  · exact fun h c hc => h c ((List.dropWhile_suffix isBlank).subset hc)

theorem trim_eq_self (hfirst : ∀ c ∈ cs.head?, isBlank c = false) (hlast : ∀ c ∈ cs.getLast?, isBlank c = false) :
    trim cs = cs := by
  have hnone : ∀ c ∈ ([] : List Char), isBlank c = true := nofun
  have hleft : trimLeft cs = cs := dropWhile_run hnone hfirst
  have hright : trimRight (cs ++ []) = cs := dropTailWhile_run hnone hlast
  rw [trim, hleft, ← List.append_nil cs, hright, List.append_nil]

theorem allBlank_iff : allBlank cs = true ↔ ∀ c ∈ cs, isBlank c = true := List.all_eq_true

theorem isDigit_of_isBlank {c : Char} (h : isBlank c = true) : isDigit c = false := by
  have hcodes : ∀ n ∈ List.range' 9 5 ++ List.range' 0x1c 5 ++ [0x85, 0xa0, 0x1680] ++ List.range' 0x2000 11 ++
      [0x2028, 0x2029, 0x202f, 0x205f, 0x3000], runValue n digitZeros = none := by decide
  have hc := hcodes c.toNat (by
    simp only [isBlank, Bool.or_eq_true, Bool.and_eq_true, decide_eq_true_eq, beq_iff_eq] at h
    simp only [List.mem_append, List.mem_range'_1, List.mem_cons, List.not_mem_nil, or_false]
    omega)
  rw [isDigit, digitValue?, hc, Option.isSome_none]

theorem after?_append (start cs : List Char) : after? start (start ++ cs) = some cs := by
  induction start with
  | nil => rfl
  | cons s start ih => simpa [after?] using ih

theorem after?_eq_some_iff {start : List Char} : after? start cs = some rest ↔ cs = start ++ rest := by
  constructor
  · intro h
    fun_induction after? start cs with
    | case1 cs => exact Option.some.inj h
    | case2 => cases h
    | case3 s start cs ih => rw [ih h, List.cons_append]
    | case4 => cases h
  · rintro rfl
    exact after?_append start rest

/-- A word without the character stands on one side of it. -/
theorem infix_append_cons {c : Char} {word left right : List Char} (hc : c ∉ word) (h : word <:+: left ++ c :: right) :
    word <:+: left ∨ word <:+: right := by
  obtain ⟨front, back, htext⟩ := h
  rcases List.append_eq_append_iff.mp htext with ⟨more, rfl, -⟩ | ⟨extra, hextra, hright⟩
  · exact .inl ⟨front, more, rfl⟩
  · cases extra with
    | nil => exact .inl ⟨front, [], by simp [hextra]⟩
    | cons d extra =>
        obtain ⟨rfl, rfl⟩ := List.cons.inj hright
        rcases List.append_eq_append_iff.mp hextra with ⟨more, rfl, rfl⟩ | ⟨more, rfl, hword⟩
        · exact absurd (by simp) hc
        · cases more with
          | nil =>
              rw [List.nil_append] at hword
              exact absurd (hword ▸ List.mem_cons_self) hc
          | cons b more =>
              obtain ⟨-, rfl⟩ := List.cons.inj hword
              exact .inr ⟨more, back, rfl⟩

theorem not_infix_of_notMem {c : Char} {word cs : List Char} (hword : c ∈ word) (hc : c ∉ cs) : ¬ word <:+: cs :=
  fun h => hc (h.subset hword)

/-- A word that does not end in what is dropped is not touched. -/
theorem infix_dropTailWhile {p : Char → Bool} {c : Char} {word cs : List Char} (hlast : word.getLast? = some c)
    (hc : p c = false) (h : word <:+: cs) : word <:+: dropTailWhile p cs := by
  obtain ⟨front, back, rfl⟩ := h
  obtain ⟨run, htext, hrun, -⟩ := exists_dropTailWhile p (front ++ word ++ back)
  rcases List.append_eq_append_iff.mp htext with ⟨more, hmore, -⟩ | ⟨extra, hextra, rfl⟩
  · exact ⟨front, more, hmore.symm⟩
  · cases hend : extra.getLast? with
    | none =>
        rw [List.getLast?_eq_none_iff.mp hend, List.append_nil] at hextra
        exact ⟨front, [], (List.append_nil _).trans hextra⟩
    | some d =>
        -- the last character of the word would be dropped
        have hd : (front ++ word).getLast? = some d := by rw [hextra, List.getLast?_append, hend, Option.some_or]
        rw [List.getLast?_append, hlast, Option.some_or, Option.some_inj] at hd
        have hmem : c ∈ extra ++ back := List.mem_append_left back (hd ▸ List.mem_of_getLast? hend)
        rw [hrun c hmem] at hc
        cases hc

end Backmap.Text
