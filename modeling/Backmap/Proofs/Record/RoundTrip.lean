import Backmap.Proofs.Numeral
import Backmap.Proofs.Record.Grammar
import Backmap.Proofs.Record.Noise

/-!
# Reading back the text of a record

The text of a record can often be cut in more than one way: a drive looks like a path with a position behind it, and a
message may hold positions of its own. The records are told here whose text is read back as they are, line by line or
among others.
-/

namespace Backmap

namespace Record

open Text

def parts (r : Record) : Parts :=
  ⟨r.path.toList, Numeral.digits r.line, r.column.map Numeral.digits, r.message.toList⟩

/-- A record that is read back from a line with its text. The path of a single letter would be taken for a drive if a
column came behind it, with the line for the rest of the path. -/
structure Legible (r : Record) : Prop where
  path : Plain r.path.toList ∨ OnDrive r.path.toList
  first : ∀ c ∈ r.path.toList.head?, isBlank c = false
  last : ∀ c ∈ r.path.toList.getLast?, isBlank c = false
  line : Numeral.fits r.line = true
  column : ∀ c ∈ r.column, Numeral.fits c = true
  message : IsMessage r.message.toList
  letter : ∀ c, r.path.toList = [c] → r.column.isSome → c.isAlpha = false

structure OneLine (r : Record) : Prop extends Legible r where
  feeds : '\n' ∉ r.path.toList ∧ '\n' ∉ r.message.toList

def texts (rs : List Record) : String := String.join (rs.map fun r => r.text ++ "\n")

variable {r : Record} {searches : List Search}

/-! ## The parts of a text -/

theorem toList_text (r : Record) : r.text.toList = r.parts.path ++ ':' ::
    (r.parts.line ++ (columnText r.parts.column ++ ':' :: ([' '] ++ (r.parts.message ++ [])))) := by
  have hwrite (n : Nat) : (Numeral.write n).toList = Numeral.digits n := String.toList_ofList
  cases hc : r.column <;> simp [text, parts, columnText, hwrite, hc]

theorem run_digits (n : Nat) : Run isDigit (Numeral.digits n) :=
  ⟨Numeral.digits_ne_nil n, fun _ hc => Numeral.isDigit_of_ascii (Numeral.isDigit_of_mem_digits hc)⟩

theorem notMem_digits {c : Char} (hc : c.isDigit = false) (n : Nat) : c ∉ Numeral.digits n := by
  intro h
  rw [Numeral.isDigit_of_mem_digits h] at hc
  cases hc

theorem Legible.written (h : r.Legible) : Written r.text.toList r.parts := by
  refine ⟨h.path, run_digits _, ?_, h.message, [' '], [], ⟨by simp, by simp [isGap]⟩, by simp, toList_text r⟩
  intro column hcolumn
  obtain ⟨c, -, rfl⟩ := Option.map_eq_some_iff.mp hcolumn
  exact run_digits c

theorem eq_of_colon {front front' back back' : List Char} (h : ':' ∉ front) (h' : ':' ∉ front')
    (he : front ++ ':' :: back = front' ++ ':' :: back') : front = front' ∧ back = back' := by
  have htake {front : List Char} (h : ':' ∉ front) (back : List Char) :
      (front ++ ':' :: back).takeWhile (· != ':') = front := by
    refine takeWhile_run (fun c hc => ?_) (by rintro c ⟨⟩; rfl)
    simp only [bne_iff_ne]
    rintro rfl
    exact h hc
  have hfront : front = front' := by rw [← htake h back, he, htake h' back']
  subst hfront
  exact ⟨rfl, (List.cons.inj (List.append_cancel_left he)).2⟩

/-- If the path is without a drive, no drive can be read from the text. -/
theorem Legible.not_onDrive (h : r.Legible) (hpath : Plain r.path.toList) {p : Parts} (hp : Written r.text.toList p) :
    ¬ OnDrive p.path := by
  rintro ⟨letter, name, hname, hletter, hplain⟩
  obtain ⟨gap, tail, -, -, htext⟩ := hp.text
  rw [toList_text, hname] at htext
  have hcolon : ':' ∉ [letter] := by
    rintro (_ | ⟨_, ⟨⟩⟩)
    cases hletter
  obtain ⟨hsingle, htext⟩ := eq_of_colon hpath.2 hcolon htext
  -- the path is the letter, so the line has to be what the drive is for
  cases hc : r.column with
  | some c =>
      rw [h.letter letter hsingle (by rw [hc]; rfl)] at hletter
      cases hletter
  | none =>
      simp only [parts, hc, Option.map_none, columnText, List.nil_append] at htext
      obtain ⟨-, htext⟩ := eq_of_colon (notMem_digits rfl _) hplain.2 htext
      obtain ⟨hne, hdigits⟩ := hp.line
      obtain ⟨d, line, hline⟩ := List.exists_cons_of_ne_nil hne
      rw [hline] at htext hdigits
      have hd : d = ' ' := (List.cons.inj htext).1.symm
      have hdigit := hdigits d List.mem_cons_self
      rw [hd] at hdigit
      cases hdigit

theorem Legible.reads (h : r.Legible) : Reads r.text.toList r.parts := by
  refine ⟨h.written, ?_⟩
  rintro ⟨p, hp, hdrive⟩
  rcases h.path with hplain | hpath
  · exact absurd hdrive (h.not_onDrive hplain hp)
  · exact hpath

theorem Legible.reports (h : r.Legible) (hquiet : ∀ search ∈ searches, search r.text.toList = false) :
    Reports searches r.text.toList r.parts := by
  have hne : r.path.toList ≠ [] := by
    rcases h.path with hplain | ⟨letter, rest, hpath, -⟩
    · exact hplain.1
    · exact hpath ▸ List.cons_ne_nil letter _
  obtain ⟨c, rest, hpath⟩ := List.exists_cons_of_ne_nil hne
  refine ⟨h.reads, ⟨c, ?_, h.first c (by rw [hpath]; rfl)⟩, hquiet⟩
  rw [parts, hpath]
  exact List.mem_cons_self

theorem Legible.toRecord_parts (h : r.Legible) : r.parts.toRecord = r := by
  have hvalues : (r.column.map Numeral.digits).map Numeral.value = r.column := by
    cases r.column <;> simp [Numeral.value_digits]
  simp only [Parts.toRecord, parts, trim_eq_self h.first h.last, Numeral.value_digits, hvalues, String.ofList_toList]

theorem Legible.comesTo (h : r.Legible) (hquiet : ∀ search ∈ searches, search r.text.toList = false) :
    ComesTo searches r.text.toList (.ok [r]) := by
  have hline : r.parts.line.length ≤ Numeral.limit := of_decide_eq_true h.line
  have hcolumn : ∀ column ∈ r.parts.column, column.length ≤ Numeral.limit := by
    intro column hcolumn
    obtain ⟨c, hc, rfl⟩ := Option.map_eq_some_iff.mp hcolumn
    exact of_decide_eq_true (h.column c hc)
  have hrecord := ComesTo.record (h.reports hquiet) hline hcolumn
  rwa [h.toRecord_parts] at hrecord

/-! ## Reading -/

theorem Legible.ofText_text (h : r.Legible) (hquiet : ∀ search ∈ searches, search r.text.toList = false) :
    Line.ofText searches r.text.toList = .record r := by
  have hcollect := (h.comesTo hquiet).collect_eq
  rw [collect] at hcollect
  split at hcollect
  · next hline =>
    rw [hline]
    cases hcollect
    rfl
  · cases hcollect
  · cases hcollect

variable {m : Type → Type} [Monad m] {noise : List Noise}

theorem ofLines_texts {rs : List Record} (h : ∀ r ∈ rs, Line.ofText searches r.text.toList = .record r)
    (rest : List (List Char)) (done : List Record) :
    (ofLines searches (rs.map (·.text.toList) ++ rest) done : Task m _) =
      ofLines searches rest (rs.reverse ++ done) := by
  induction rs generalizing done with
  | nil => rfl
  | cons r rs ih =>
      obtain ⟨hr, hrs⟩ := List.forall_mem_cons.mp h
      rw [List.map_cons, List.cons_append, ofLines, hr]
      simp only [ih hrs, List.reverse_cons, List.append_assoc, List.singleton_append]

theorem OneLine.notMem_text (h : r.OneLine) : '\n' ∉ r.text.toList := by
  have hdigits (n : Nat) : '\n' ∉ Numeral.digits n := notMem_digits rfl n
  have hcolumn : '\n' ∉ columnText r.parts.column := by
    cases hc : r.column <;> simp [parts, hc, columnText, hdigits]
  rw [toList_text]
  simp only [List.mem_append, List.mem_cons, hcolumn]
  simp [parts, hdigits, h.feeds]

theorem toList_texts (rs : List Record) :
    (texts rs).toList = (rs.map (·.text.toList)).flatMap (· ++ ['\n']) := by
  simp [texts, String.toList_join, List.flatMap_map]

/-- The text of a record is read back as the record, by itself and among the lines of others, unless a pattern for
noise is found in it. Nothing is told on the way. -/
theorem parse_text (hp : readPatterns noise = .ok searches) :
    (∀ r : Record, r.OneLine → (∀ search ∈ searches, search r.text.toList = false) →
      parse r.text noise = (pure [r] : Task m _)) ∧
    ∀ rs : List Record, (∀ r ∈ rs, r.OneLine ∧ ∀ search ∈ searches, search r.text.toList = false) →
      parse (texts rs) noise = (pure rs : Task m _) := by
  refine ⟨fun r hr hquiet => ?_, fun rs hrs => ?_⟩
  · rw [parse, hp, splitOn_eq, List.splitOn_eq_singleton hr.notMem_text]
    simp only [ofLines, hr.ofText_text hquiet]
    rfl
  · have hfeeds : ∀ piece ∈ rs.map (·.text.toList), '\n' ∉ piece := by
      intro piece hpiece
      obtain ⟨r, hr, rfl⟩ := List.mem_map.mp hpiece
      exact (hrs r hr).1.notMem_text
    have hlines : ∀ r ∈ rs, Line.ofText searches r.text.toList = .record r := fun r hr =>
      (hrs r hr).1.ofText_text (hrs r hr).2
    rw [parse, hp, splitOn_eq, toList_texts, splitOn_flatMap hfeeds]
    dsimp only
    -- behind the last line feed there is an empty line, which is no record
    have hempty : Line.ofText searches [] = .other := rfl
    rw [ofLines_texts hlines, ofLines, hempty]
    simp [ofLines]

/-- A drive with a column, and a letter without one. Both messages hold what could be a position. -/
theorem parse_text_positions :
    readPatterns ({} : Settings).noisePatterns = .ok chatter ∧
      parse "C:9:5:3: 7: D:1: [# x" ({} : Settings).noisePatterns =
        (pure [⟨"C:9", 5, some 3, "7: D:1: [# x"⟩] : Task Id _) ∧
      parse (texts [⟨"C", 0, none, "9:5:3: \r\t."⟩, ⟨"C:9", 5, some 3, "7: D:1: [# x"⟩]) ({} : Settings).noisePatterns =
        (pure [⟨"C", 0, none, "9:5:3: \r\t."⟩, ⟨"C:9", 5, some 3, "7: D:1: [# x"⟩] : Task Id _) := by
  have hdrive : OneLine ⟨"C:9", 5, some 3, "7: D:1: [# x"⟩ := by
    refine ⟨⟨.inr ⟨'C', ['9'], rfl, rfl, by decide, by decide⟩, ?_, ?_, by decide, by decide,
      ⟨⟨'7', by decide, by decide⟩, ?_⟩, fun c hc => absurd (congrArg List.length hc) (by simp)⟩, by decide⟩
    all_goals
      rintro c ⟨⟩
      rfl
  have hletter : OneLine ⟨"C", 0, none, "9:5:3: \r\t."⟩ := by
    refine ⟨⟨.inl ⟨by decide, by decide⟩, ?_, ?_, by decide, by decide, ⟨⟨'9', by decide, by decide⟩, ?_⟩,
      fun _ _ hcolumn => absurd hcolumn (by decide)⟩, by decide⟩
    all_goals
      rintro c ⟨⟩
      rfl
  obtain ⟨hone, hall⟩ := parse_text (m := Id) readPatterns_default
  refine ⟨readPatterns_default, hone ⟨"C:9", 5, some 3, "7: D:1: [# x"⟩ hdrive (by decide), hall _ ?_⟩
  simp only [List.forall_mem_cons]
  exact ⟨⟨hletter, by decide⟩, ⟨hdrive, by decide⟩, List.forall_mem_nil _⟩

end Record

end Backmap
