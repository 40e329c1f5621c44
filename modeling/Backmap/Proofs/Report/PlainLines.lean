import Backmap.Proofs.Record.RoundTrip
import Backmap.Proofs.Report.JsonLines

/-!
# Reports of plain lines

A report in plain text is compiler output: what is written for a diagnostic is the text of a record, and it is read back
as that record whatever the message says.
-/

namespace Backmap

namespace Record

open Text

/-! ## Records that are read back -/

/-- The path is one from the root, and the message ends in a bracket. -/
structure Rooted (r : Record) : Prop where
  root : r.path.toList.head? = some '/'
  colon : ':' ∉ r.path.toList
  last : ∀ c ∈ r.path.toList.getLast?, isBlank c = false
  line : Numeral.fits r.line = true
  column : ∀ c ∈ r.column, Numeral.fits c = true
  message : ∃ c ∈ r.message.toList.head?, isBlank c = false
  bracket : r.message.toList.getLast? = some ']'

variable {r : Record}

theorem Rooted.legible (h : r.Rooted) : r.Legible := by
  obtain ⟨rest, hpath⟩ : ∃ rest, r.path.toList = '/' :: rest := List.head?_eq_some_iff.mp h.root
  refine ⟨.inl ⟨hpath ▸ List.cons_ne_nil _ _, h.colon⟩, ?_, h.last, h.line, h.column, ⟨h.message, ?_⟩, ?_⟩
  · rw [h.root]
    rintro c ⟨⟩
    rfl
  · rw [h.bracket]
    rintro c ⟨⟩
    rfl
  · -- a slash is not the letter of a drive
    intro c hc _
    cases hpath.symm.trans hc
    rfl

theorem Rooted.collect_text (h : r.Rooted) : collect chatter [r.text.toList] = .ok [r] := by
  have hfirst : r.text.toList.head? = some '/' := by
    obtain ⟨rest, hpath⟩ := List.head?_eq_some_iff.mp h.root
    rw [toList_text, parts, hpath]
    rfl
  have hlast : r.text.toList.getLast? = some ']' := by
    simp [toList_text, parts, List.getLast?_append, List.getLast?_cons, h.bracket]
  exact (h.legible.comesTo (chatter_quiet hfirst hlast)).collect_eq

end Record

/-! ## Diagnostics as records -/

namespace Diagnostic

open Text

/-- What can stand on a line of compiler output: the file is named from the root and without colons, no text has a line
feed, and the place is one in a text. -/
structure Rooted (d : Diagnostic) : Prop extends Presentable d where
  root : d.file.toList.head? = some '/'
  colon : ':' ∉ d.file.toList
  last : ∀ c ∈ d.file.toList.getLast?, isBlank c = false
  feeds : '\n' ∉ d.file.toList ∧ '\n' ∉ d.message.toList
  sourceFeeds : ∀ s, d.source = .str s → '\n' ∉ s.toList
  codeFeeds : ∀ s, d.code = .str s → '\n' ∉ s.toList
  line : 0 ≤ d.line
  column : ∀ c ∈ d.column, 0 ≤ c

/-- Where a diagnostic comes from: the source, and the code unless it is empty. -/
def origin (d : Diagnostic) : String :=
  match d.source, d.code with
  | .str source, .str code => if code = "" then source else source ++ "/" ++ code
  | .str source, _ => source
  | _, _ => ""

def record (d : Diagnostic) : Record where
  path := d.file
  line := d.line.toNat + 1
  column := d.column.map (·.toNat + 1)
  message := d.severity.label ++ ": " ++ d.message ++ " [" ++ d.origin ++ "]"

variable {d : Diagnostic}

theorem Presentable.origin_eq (h : d.Presentable) :
    d.source.display ++ (if d.code.isTruthy then "/" ++ d.code.display else "") = d.origin := by
  obtain ⟨source, hsource⟩ := h.source
  rcases h.code with hcode | ⟨code, hcode⟩
  · simp [origin, hsource, hcode, Json.display, Json.isTruthy]
  · by_cases hempty : code = "" <;>
      simp [origin, hsource, hcode, Json.display, Json.isTruthy, hempty, String.append_assoc]

theorem cast_toNat_succ {n : Int} (h : 0 ≤ n) : ((n.toNat + 1 : Nat) : Int) = n + 1 := by omega

theorem Rooted.plain_eq (h : d.Rooted) : d.plain = d.record.text := by
  have hline := cast_toNat_succ h.line
  cases hc : d.column with
  | none => simp [plain, record, Record.text, hc, ← h.origin_eq, hline, String.append_assoc]
  | some c =>
      have hcolumn := cast_toNat_succ (h.column c hc)
      simp [plain, record, Record.text, hc, ← h.origin_eq, hline, hcolumn, String.append_assoc]

theorem Rooted.record_rooted (h : d.Rooted) : d.record.Rooted where
  root := h.root
  colon := h.colon
  last := h.last
  line := by
    rw [record, cast_toNat_succ h.line]
    exact h.fits_line
  column := by
    intro c hc
    obtain ⟨k, hk, rfl⟩ := Option.map_eq_some_iff.mp hc
    rw [cast_toNat_succ (h.column k hk)]
    exact h.fits_column k hk
  message := by cases hs : d.severity <;> simp [record, hs, Severity.label] <;> rfl
  bracket := by
    simp only [record, String.toList_append, List.getLast?_append]
    rfl

theorem Rooted.notMem_origin (h : d.Rooted) : '\n' ∉ d.origin.toList := by
  obtain ⟨source, hsource⟩ := h.source
  have hsourceFeeds := h.sourceFeeds source hsource
  rcases h.code with hcode | ⟨code, hcode⟩
  · simpa [origin, hsource, hcode] using hsourceFeeds
  · have hcodeFeeds := h.codeFeeds code hcode
    by_cases hempty : code = "" <;> simp [origin, hsource, hcode, hempty, hsourceFeeds, hcodeFeeds]

theorem Rooted.notMem_plain (h : d.Rooted) : '\n' ∉ d.plain.toList := by
  have hlabel : '\n' ∉ d.severity.label.toList := by cases d.severity <;> decide
  have hmessage : '\n' ∉ d.record.message.toList := by simp [record, hlabel, h.feeds, h.notMem_origin]
  have hline : d.record.OneLine := ⟨h.record_rooted.legible, h.feeds.1, hmessage⟩
  rw [h.plain_eq]
  exact hline.notMem_text

end Diagnostic

namespace Report

open Record

theorem collect_plain {ds : List Diagnostic} (h : ∀ d ∈ ds, d.Rooted) :
    collect chatter (ds.map (·.plain.toList) ++ [[]]) = .ok (ds.map Diagnostic.record) := by
  induction ds with
  | nil => rfl
  | cons d ds ih =>
      obtain ⟨hd, hds⟩ := List.forall_mem_cons.mp h
      rw [List.map_cons, List.cons_append, collect_cons, hd.plain_eq, hd.record_rooted.collect_text, ih hds]
      rfl

/-- A report in plain text is compiler output with a record for every diagnostic, in their order. -/
theorem render_plain_records {m : Type → Type} [Monad m] (read : Reader m) (palette : Palette) (tool : Tool)
    (groups : Groups) (h : ∀ d ∈ groups.diagnostics, d.Rooted) {σ : Type} (log : Log) (w : σ) :
    ∃ written, render read palette .plain tool groups = pure ⟨written, none, .ofDiagnostics groups.diagnostics⟩ ∧
      outcome ({} : Settings).noisePatterns log w written.toList = .ok (groups.diagnostics.map Diagnostic.record) := by
  have hfits : ∀ d ∈ groups.diagnostics, d.fits = true := fun d hd => (h d hd).fits
  obtain ⟨written, hwritten, htext⟩ := lineByLine_of_writable hfits Diagnostic.plain ""
  refine ⟨written, by rw [render, hwritten], ?_⟩
  have hpieces : ∀ piece ∈ groups.diagnostics.map (·.plain.toList), '\n' ∉ piece := by
    intro piece hpiece
    obtain ⟨d, hd, rfl⟩ := List.mem_map.mp hpiece
    exact (h d hd).notMem_plain
  rw [outcome_eq readPatterns_default, htext, String.toList_empty, List.nil_append, Text.splitOn_flatMap hpieces]
  exact collect_plain h

/-- A place in a message, and what would be noise at the end of a line, are part of the message. -/
theorem render_plain_records_of_places :
    ∃ written, render (m := Id) (fun _ => .ok .silent) .ansi .plain {}
        [("/w/a.go", [⟨"/w/a.go", 0, "b.go:12: too many errors", .error, .str "too many errors ", some 0, .null⟩]),
          ("/c", []), ("/# b.go", [⟨"/# b.go", 41, "", .hint, .str "", none, .str "E:1: \r"⟩])] =
        pure ⟨written, none, { error := 1, hint := 1 }⟩ ∧
      outcome ({} : Settings).noisePatterns #[] () written.toList =
        .ok [⟨"/w/a.go", 1, some 1, "error: b.go:12: too many errors [too many errors ]"⟩,
          ⟨"/# b.go", 42, none, "hint:  [/E:1: \r]"⟩] := by
  refine render_plain_records _ _ _ _ ?_ _ _
  simp only [Groups.diagnostics, List.flatMap_cons, List.flatMap_nil, List.cons_append, List.nil_append,
    List.forall_mem_cons]
  refine ⟨?_, ?_, List.forall_mem_nil _⟩
  · refine ⟨⟨⟨_, rfl⟩, .inl rfl, by decide⟩, rfl, by decide, ?_, by decide, ?_, by simp, by decide, by simp⟩
    · rintro c ⟨⟩
      rfl
    · rintro s ⟨⟩
      decide
  · refine ⟨⟨⟨_, rfl⟩, .inr ⟨_, rfl⟩, by decide⟩, rfl, by decide, ?_, by decide, ?_, ?_, by decide, by simp⟩
    · rintro c ⟨⟩
      rfl
    all_goals
      rintro s ⟨⟩
      decide

end Report

end Backmap
