import Backmap.Proofs.Json.RoundTrip
import Backmap.Proofs.Text.Lines
import Backmap.Report

/-!
# Reports of JSON lines

A report in JSON has a line for every diagnostic, in their order, and each line can be read as the object of its
diagnostic. Nothing that is written for an object breaks a line, since all of it is printable ASCII.
-/

namespace Backmap

namespace Json

open Text

/-! ## What is written is printable -/

def Printable (c : Char) : Prop := 0x20 ≤ c.toNat ∧ c.toNat < 0x7f

instance (c : Char) : Decidable (Printable c) := inferInstanceAs (Decidable (_ ∧ _))

theorem Printable.isBreak {c : Char} (h : Printable c) : isBreak c = false := by
  unfold Printable at h
  simp only [Text.isBreak, Bool.or_eq_false_iff, Bool.and_eq_false_iff, decide_eq_false_iff_not, beq_eq_false_iff_ne]
  omega

theorem printable_of_all {cs : List Char} (h : cs.all (Printable ·) = true) : ∀ c ∈ cs, Printable c := by
  intro c hc
  exact of_decide_eq_true (List.all_eq_true.mp h c hc)

theorem printable_of_isDigit {c : Char} (h : c.isDigit = true) : Printable c := by
  simp only [Char.isDigit, Bool.and_eq_true, decide_eq_true_eq, ge_iff_le, UInt32.le_iff_toNat_le] at h
  exact ⟨Nat.le_trans (by decide) h.1, Nat.lt_of_le_of_lt h.2 (by decide)⟩

theorem printable_unitEscape (n : Nat) : ∀ c ∈ unitEscape n, Printable c := by
  have hdigit (k : Nat) : Printable (hexDigit (k % 16)) := by
    have hall : ∀ d, d < 16 → Printable (hexDigit d) := by decide
    exact hall _ (Nat.mod_lt k (by decide))
  simp only [unitEscape, hex_four, List.forall_mem_cons]
  exact ⟨by decide, by decide, hdigit _, hdigit _, hdigit _, hdigit _, List.forall_mem_nil _⟩

theorem printable_escapeChar (c : Char) : ∀ d ∈ escapeChar c, Printable d := by
  simp only [escapeChar]
  split_ifs
  -- Left are the characters that have no escape of one letter.
  any_goals exact printable_of_all rfl
  · next hprintable => exact List.forall_mem_singleton.mpr hprintable
  · exact printable_unitEscape _
  · exact List.forall_mem_append.mpr ⟨printable_unitEscape _, printable_unitEscape _⟩

theorem printable_writeString (s : String) : ∀ c ∈ writeString s, Printable c := by
  simp only [writeString, List.cons_append, List.forall_mem_cons, List.forall_mem_append, List.mem_flatMap]
  refine ⟨by decide, ?_, by decide, List.forall_mem_nil _⟩
  rintro c ⟨d, -, hc⟩
  exact printable_escapeChar d c hc

theorem printable_write (n : Int) : ∀ c ∈ (Numeral.write n).toList, Printable c := by
  rw [Numeral.toList_write, List.forall_mem_append]
  refine ⟨?_, fun c hc => printable_of_isDigit (Numeral.isDigit_of_mem_digits hc)⟩
  split
  · exact printable_of_all rfl
  · exact nofun

theorem printable_intercalate {sep : List Char} (hsep : ∀ c ∈ sep, Printable c) {parts : List (List Char)}
    (h : ∀ part ∈ parts, ∀ c ∈ part, Printable c) : ∀ c ∈ sep.intercalate parts, Printable c := by
  induction parts with
  | nil => exact nofun
  | cons part parts ih =>
      obtain ⟨hpart, hparts⟩ := List.forall_mem_cons.mp h
      by_cases hne : parts = []
      · rw [hne, List.intercalate_singleton]
        exact hpart
      · rw [intercalate_cons hne, List.forall_mem_append, List.forall_mem_append]
        exact ⟨hpart, hsep, ih hparts⟩

theorem printable_enclose {opening closing : Char} (hopening : Printable opening) (hclosing : Printable closing)
    {parts : List (List Char)} (h : ∀ part ∈ parts, ∀ c ∈ part, Printable c) :
    ∀ c ∈ enclose opening closing [',', ' '] [] [] parts, Printable c := by
  have hinner : ∀ c ∈ [',', ' '].intercalate parts, Printable c := printable_intercalate (printable_of_all rfl) h
  unfold enclose
  split
  · simpa using ⟨hopening, hclosing⟩
  · rw [List.append_nil, List.cons_append, List.cons_append, List.nil_append, List.forall_mem_cons,
      List.forall_mem_append, List.forall_mem_singleton]
    exact ⟨hopening, hinner, hclosing⟩

mutual

/-- On one line, all that is written is printable. -/
theorem printable_writeAt (depth : Nat) : ∀ {v : Json}, v.Exact → ∀ c ∈ writeAt oneLine depth v, Printable c
  | null, _ => printable_of_all rfl
  | bool true, _ => printable_of_all rfl
  | bool false, _ => printable_of_all rfl
  | int n, _ => printable_write n
  | float _, h => h.elim
  | str s, _ => printable_writeString s
  | arr _, h => printable_enclose (by decide) (by decide) (printable_writeItems (depth + 1) h)
  | obj _, h => printable_enclose (by decide) (by decide) (printable_writeMembers (depth + 1) h.2)

theorem printable_writeItems (depth : Nat) :
    ∀ {vs : List Json}, ExactItems vs → ∀ part ∈ writeItems oneLine depth vs, ∀ c ∈ part, Printable c
  | [], _ => nofun
  | _ :: _, h => List.forall_mem_cons.mpr ⟨printable_writeAt depth h.1, printable_writeItems depth h.2⟩

theorem printable_writeMembers (depth : Nat) :
    ∀ {ms : List (String × Json)}, ExactMembers ms → ∀ part ∈ writeMembers oneLine depth ms, ∀ c ∈ part, Printable c
  | [], _ => nofun
  | (k, _) :: _, h => by
      refine List.forall_mem_cons.mpr ⟨?_, printable_writeMembers depth h.2⟩
      rw [List.forall_mem_append, List.forall_mem_cons, List.forall_mem_cons]
      exact ⟨printable_writeString k, by decide, by decide, printable_writeAt depth h.1⟩

end

mutual

theorem Exact.fits : ∀ {v : Json}, v.Exact → v.fits = true
  | null, _ => rfl
  | bool _, _ => rfl
  | int _, h => h
  | float _, h => h.elim
  | str _, _ => rfl
  | arr _, h => ExactItems.fits h
  | obj _, h => ExactMembers.fits h.2

theorem ExactItems.fits : ∀ {vs : List Json}, ExactItems vs → fitItems vs = true
  | [], _ => rfl
  | _ :: _, h => Bool.and_eq_true_iff.mpr ⟨Exact.fits h.1, ExactItems.fits h.2⟩

theorem ExactMembers.fits : ∀ {ms : List (String × Json)}, ExactMembers ms → fitMembers ms = true
  | [], _ => rfl
  | (_, _) :: _, h => Bool.and_eq_true_iff.mpr ⟨Exact.fits h.1, ExactMembers.fits h.2⟩

end

end Json

/-! ## Diagnostics -/

namespace Diagnostic

/-- What has a text is a text, and the numbers are not too long. -/
structure Textual (d : Diagnostic) : Prop where
  source : ∃ s, d.source = .str s
  code : d.code = .null ∨ ∃ s, d.code = .str s
  line : Numeral.fits d.line = true
  column : ∀ c ∈ d.column, Numeral.fits c = true

/-- The same, where the numbers are those that people see. -/
structure Presentable (d : Diagnostic) : Prop where
  source : ∃ s, d.source = .str s
  code : d.code = .null ∨ ∃ s, d.code = .str s
  fits : d.fits = true

variable {d : Diagnostic}

theorem Presentable.fits_line (h : d.Presentable) : Numeral.fits (d.line + 1) = true :=
  (Bool.and_eq_true_iff.mp h.fits).1

theorem Presentable.fits_column (h : d.Presentable) : ∀ c ∈ d.column, Numeral.fits (c + 1) = true := by
  intro c hc
  have hfits := (Bool.and_eq_true_iff.mp h.fits).2
  rw [hc] at hfits
  exact hfits

theorem Textual.exact_json (h : d.Textual) : d.json.Exact := by
  obtain ⟨s, hsource⟩ := h.source
  have hcode : d.code.Exact := by
    rcases h.code with hcode | ⟨s, hcode⟩ <;> rw [hcode] <;> trivial
  have hkeys : (d.members.map (·.1)).Nodup := by
    cases hcolumn : d.column <;> cases htruthy : d.code.isTruthy <;> simp [members, hcolumn, htruthy]
  refine ⟨hkeys, ?_⟩
  cases hcolumn : d.column with
  | none =>
      cases htruthy : d.code.isTruthy <;>
        simp [members, hcolumn, htruthy, Json.ExactMembers, Json.Exact, hsource, hcode, h.line]
  | some c =>
      have hfits : Numeral.fits c = true := h.column c hcolumn
      cases htruthy : d.code.isTruthy <;>
        simp [members, hcolumn, htruthy, Json.ExactMembers, Json.Exact, hsource, hcode, h.line, hfits]

theorem Textual.depth_json (h : d.Textual) : d.json.depth = 1 := by
  obtain ⟨s, hsource⟩ := h.source
  have hcode : d.code.depth = 0 := by
    rcases h.code with hcode | ⟨s, hcode⟩ <;> rw [hcode] <;> rfl
  cases hcolumn : d.column <;> cases htruthy : d.code.isTruthy <;>
    simp [json, members, hcolumn, htruthy, Json.depth, Json.depthMembers, hsource, hcode]

theorem Textual.read_jsonLine {dialect : Json.Dialect} (h : d.Textual) (hroom : 1 ≤ dialect.room) :
    Json.read dialect d.jsonLine = .ok d.json :=
  Json.read_write Json.oneLine_spaced h.exact_json (h.depth_json ▸ hroom)

theorem Textual.isBreak_jsonLine (h : d.Textual) : ∀ c ∈ d.jsonLine.toList, Text.isBreak c = false := by
  intro c hc
  rw [jsonLine, Json.write, String.toList_ofList] at hc
  exact (Json.printable_writeAt 0 h.exact_json c hc).isBreak

end Diagnostic

/-! ## Reports -/

namespace Report

/-- There is a line for each diagnostic up to the first that cannot be written. -/
theorem lineByLine_eq (writable : Diagnostic → Bool) (line : Diagnostic → String) (ds : List Diagnostic)
    (written : String) :
    ∃ text, lineByLine writable line ds written = (text, if ds.all writable then none else some .numberTooLong) ∧
      text.toList = written.toList ++ ((ds.takeWhile writable).map fun d => (line d).toList).flatMap (· ++ ['\n']) := by
  induction ds generalizing written with
  | nil => exact ⟨written, rfl, (List.append_nil _).symm⟩
  | cons d ds ih =>
      cases hd : writable d with
      | false => exact ⟨written, by simp [lineByLine, hd], by simp [hd]⟩
      | true =>
          obtain ⟨text, hlines, htext⟩ := ih (written ++ line d ++ "\n")
          refine ⟨text, by simp [lineByLine, hd, hlines], ?_⟩
          rw [htext, List.takeWhile_cons_of_pos hd, List.map_cons, List.flatMap_cons]
          simp only [String.toList_append, List.append_assoc]
          rfl

theorem lineByLine_of_writable {writable : Diagnostic → Bool} {ds : List Diagnostic}
    (h : ∀ d ∈ ds, writable d = true) (line : Diagnostic → String) (written : String) :
    ∃ text, lineByLine writable line ds written = (text, none) ∧
      text.toList = written.toList ++ (ds.map fun d => (line d).toList).flatMap (· ++ ['\n']) := by
  obtain ⟨text, hlines, htext⟩ := lineByLine_eq writable line ds written
  rw [if_pos (List.all_eq_true.mpr h)] at hlines
  rw [List.takeWhile_eq_self_iff.mpr h] at htext
  exact ⟨text, hlines, htext⟩

theorem read_jsonLines {dialect : Json.Dialect} (hroom : 1 ≤ dialect.room) {ds : List Diagnostic}
    (h : ∀ d ∈ ds, d.Textual) {text : List Char}
    (htext : text = (ds.map fun d => d.jsonLine.toList).flatMap (· ++ ['\n'])) :
    (Text.lines text).map (fun line => Json.read dialect (String.ofList line)) = ds.map fun d => .ok d.json := by
  have hlines : Text.lines text = ds.map (·.jsonLine.toList) := by
    rw [htext]
    refine Text.lines_flatMap fun piece hpiece => ?_
    obtain ⟨d, hd, rfl⟩ := List.mem_map.mp hpiece
    exact (h d hd).isBreak_jsonLine
  rw [hlines, List.map_map]
  refine List.map_congr_left fun d hd => ?_
  rw [Function.comp_apply, String.ofList_toList]
  exact (h d hd).read_jsonLine hroom

/-- A report in JSON holds one line for each diagnostic, in their order, and from its line the object of a
diagnostic is read back, with its members in their order. -/
theorem render_json_lines {m : Type → Type} [Monad m] (read : Reader m) (palette : Palette) (tool : Tool)
    (groups : Groups) (dialect : Json.Dialect) (hroom : 1 ≤ dialect.room) (h : ∀ d ∈ groups.diagnostics, d.Textual) :
    ∃ written, render read palette .json tool groups = pure ⟨written, none, .ofDiagnostics groups.diagnostics⟩ ∧
      (Text.lines written.toList).map (fun line => Json.read dialect (String.ofList line)) =
        groups.diagnostics.map fun d => .ok d.json := by
  have hfits : ∀ d ∈ groups.diagnostics, d.json.fits = true := fun d hd => (h d hd).exact_json.fits
  obtain ⟨written, hwritten, htext⟩ := lineByLine_of_writable hfits Diagnostic.jsonLine ""
  exact ⟨written, by rw [render, hwritten], read_jsonLines hroom h htext⟩

/-- Breaks of every kind, controls and characters beyond the basic plane are no obstacle. -/
theorem render_json_lines_of_breaks :
    ∃ written, render (m := Id) (fun _ => .ok .silent) .ansi .json {}
        [("b.inco.go", [{ file := "b.inco.go", line := -1, message := "one\ntwo\r\n\x85\u2028\x00\x1c\x7f" }]),
          ("c", []),
          ("a.go", [⟨"a\"\\.go", 7, "𝔸\u2029é", .hint, .str "", some 0, .str "E\x0b"⟩])] =
        pure ⟨written, none, { error := 1, hint := 1 }⟩ ∧
      (Text.lines written.toList).map (fun line => Json.read .usual (String.ofList line)) =
        [.ok (.obj [("file", .str "b.inco.go"), ("line", .int (-1)), ("severity", .str "error"),
            ("source", .str "inco"), ("message", .str "one\ntwo\r\n\x85\u2028\x00\x1c\x7f")]),
          .ok (.obj [("file", .str "a\"\\.go"), ("line", .int 7), ("severity", .str "hint"), ("source", .str ""),
            ("message", .str "𝔸\u2029é"), ("column", .int 0), ("code", .str "E\x0b")])] := by
  refine render_json_lines _ _ _ _ .usual (by decide) ?_
  simp only [Groups.diagnostics, List.flatMap_cons, List.flatMap_nil, List.cons_append, List.nil_append,
    List.forall_mem_cons]
  exact ⟨⟨⟨_, rfl⟩, .inl rfl, by decide, nofun⟩, ⟨⟨_, rfl⟩, .inr ⟨_, rfl⟩, by decide, by simp; decide⟩, nofun⟩

end Report

end Backmap
