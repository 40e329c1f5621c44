import Backmap.Proofs.Ends

/-!
# Compiler output, line by line

Reading output keeps the records found so far and a log. What it comes to is stated here as a function of the
lines.
-/

namespace Backmap.Record

open Backmap.Task

def collect (searches : List Search) : List (List Char) → Except Fault (List Record)
  | [] => .ok []
  | line :: lines =>
    match Line.ofText searches line with
    | .record r => (collect searches lines).map (r :: ·)
    | .fault f => .error f
    | _ => collect searches lines

def parsed (output : String) (noise : List Noise) : Except Fault (List Record) := do
  let searches ← readPatterns noise
  collect searches (Text.splitOn '\n' output.toList)

variable {σ : Type} {log : Log} {w : σ}

theorem ofLines_ends {searches : List Search} {lines : List (List Char)} {done : List Record} :
    (ofLines searches lines done : Task (StateM σ) _).Ends log w fun x w' =>
      x = (collect searches lines).map (done.reverse ++ ·) ∧ w' = w := by
  induction lines generalizing log done with
  | nil => exact ends_pure.mpr ⟨by simp [collect, Except.map], rfl⟩
  | cons line lines ih =>
      unfold ofLines collect
      cases Line.ofText searches line with
      | other => exact ih
      | noise => exact ends_log_bind fun log => ih
      | fault f => exact ends_throw.mpr ⟨rfl, rfl⟩
      | record r =>
          refine ih.mono ?_
          rintro x w' ⟨rfl, rfl⟩
          refine ⟨?_, rfl⟩
          cases collect searches lines <;> simp [Except.map]

theorem parse_ends {output : String} {noise : List Noise} :
    (parse output noise : Task (StateM σ) _).Ends log w fun x w' => x = parsed output noise ∧ w' = w := by
  unfold parse parsed
  cases readPatterns noise with
  | error e => exact ends_throw.mpr ⟨rfl, rfl⟩
  | ok searches =>
      refine ofLines_ends.mono ?_
      rintro x w' ⟨rfl, rfl⟩
      rw [ok_bind]
      cases collect searches (Text.splitOn '\n' output.toList) <;> simp [Except.map]

/-! ## Faults -/

/-- The numbers of a line can be read, if the line is a record and no noise. -/
def Readable (searches : List Search) (line : List Char) : Prop :=
  ∀ p, parts? line = some p → Text.trim p.path ≠ [] → isNoise searches line = false →
    p.line.length ≤ Numeral.limit ∧ ∀ column ∈ p.column, column.length ≤ Numeral.limit

def ofLine? (searches : List Search) (line : List Char) : Option Record :=
  match Line.ofText searches line with
  | .record r => some r
  | _ => none

variable {searches : List Search} {line : List Char} {lines : List (List Char)}

theorem Parts.record_of_fit {p : Parts} (hline : p.line.length ≤ Numeral.limit)
    (hcolumn : ∀ column ∈ p.column, column.length ≤ Numeral.limit) :
    p.record = .ok ⟨String.ofList (Text.trim p.path), Numeral.value p.line, p.column.map Numeral.value,
      String.ofList p.message⟩ := by
  unfold Parts.record
  rw [Numeral.ofDigits_of_le hline]
  cases hc : p.column with
  | none => rfl
  | some column =>
      simp only [Numeral.ofDigits_of_le (hcolumn column hc)]
      rfl

theorem Parts.record_of_longLine {p : Parts} (hline : Numeral.limit < p.line.length) :
    p.record = .error (.numeral (.tooLong p.line.length)) := by
  unfold Parts.record
  rw [Numeral.ofDigits_of_not_le (Nat.not_le.mpr hline)]
  rfl

theorem Parts.record_of_longColumn {p : Parts} {column : List Char} (hline : p.line.length ≤ Numeral.limit)
    (hp : p.column = some column) (hcolumn : Numeral.limit < column.length) :
    p.record = .error (.numeral (.tooLong column.length)) := by
  unfold Parts.record
  rw [Numeral.ofDigits_of_le hline, hp]
  simp only [Numeral.ofDigits_of_not_le (Nat.not_le.mpr hcolumn)]
  rfl

theorem Parts.record_ok_iff {p : Parts} : (∃ r, p.record = .ok r) ↔
    p.line.length ≤ Numeral.limit ∧ ∀ column ∈ p.column, column.length ≤ Numeral.limit := by
  constructor
  · rintro ⟨r, hr⟩
    have hline : p.line.length ≤ Numeral.limit := Nat.not_lt.mp fun hlong => by
      rw [record_of_longLine hlong] at hr
      cases hr
    refine ⟨hline, fun column hp => Nat.not_lt.mp fun hlong => ?_⟩
    rw [record_of_longColumn hline hp hlong] at hr
    cases hr
  · exact fun ⟨hline, hcolumn⟩ => ⟨_, record_of_fit hline hcolumn⟩

theorem readable_iff : Readable searches line ↔ ∀ f, Line.ofText searches line ≠ .fault f := by
  unfold Readable Line.ofText
  cases hp : parts? line with
  | none => simp
  | some p =>
      by_cases hskip : Text.trim p.path = [] ∨ isNoise searches line = true
      · have hnoise : (decide (Text.trim p.path = []) || isNoise searches line) = true := by simpa using hskip
        simp only [hnoise, if_true]
        constructor
        · simp
        · rintro - _ ⟨⟩ htrim hline
          rcases hskip with h | h
          · exact absurd h htrim
          · rw [hline] at h
            cases h
      · obtain ⟨htrim, hline⟩ := not_or.mp hskip
        have hrecord : (decide (Text.trim p.path = []) || isNoise searches line) = false := by simp [htrim, hline]
        simp only [hrecord, Bool.false_eq_true, if_false]
        have hiff := Parts.record_ok_iff (p := p)
        cases hr : p.record with
        | ok r =>
            rw [hr] at hiff
            exact ⟨fun _ _ => Line.noConfusion, by rintro - _ ⟨⟩ - -; exact hiff.mp ⟨r, rfl⟩⟩
        | error f =>
            rw [hr] at hiff
            constructor
            · intro h
              obtain ⟨r, ⟨⟩⟩ := hiff.mpr (h p rfl htrim (Bool.eq_false_iff.mpr hline))
            · exact fun h => absurd rfl (h f)

theorem collect_of_readable (h : ∀ line ∈ lines, Readable searches line) :
    collect searches lines = .ok (lines.filterMap (ofLine? searches)) := by
  induction lines with
  | nil => rfl
  | cons line lines ih =>
      obtain ⟨hline, hlines⟩ := List.forall_mem_cons.mp h
      rw [collect, List.filterMap_cons, ofLine?]
      cases ht : Line.ofText searches line with
      | other => exact ih hlines
      | noise => exact ih hlines
      | record r =>
          rw [ih hlines]
          rfl
      | fault f => exact absurd ht (readable_iff.mp hline f)

theorem collect_of_not_readable (h : ¬ ∀ line ∈ lines, Readable searches line) :
    ∃ e, collect searches lines = .error e := by
  induction lines with
  | nil => simp at h
  | cons line lines ih =>
      rw [List.forall_mem_cons] at h
      by_cases hline : Readable searches line
      · obtain ⟨e, he⟩ := ih fun hlines => h ⟨hline, hlines⟩
        rw [collect, he]
        cases Line.ofText searches line <;> exact ⟨_, rfl⟩
      · obtain ⟨f, hf⟩ := Classical.not_forall.mp (mt readable_iff.mpr hline)
        rw [collect, Classical.not_not.mp hf]
        exact ⟨f, rfl⟩

end Backmap.Record
