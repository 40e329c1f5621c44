import Backmap.Marker
import Backmap.Proofs.Ends

/-!
# Markers, line by line
-/

namespace Backmap.Marker

variable {token line : List Char} {lines : List (List Char)}

/-- The number of a line can be read, if the line is a marker. -/
def Readable (token line : List Char) : Prop :=
  ∀ path digits, parts? token (Text.trimLeft line) = some (path, digits) → digits.length ≤ Numeral.limit

theorem ofLines_ok_iff (index : Nat) :
    (∃ ms, ofLines token index lines = .ok ms) ↔ ∀ line ∈ lines, Readable token line := by
  induction lines generalizing index with
  | nil => simp [ofLines]
  | cons line lines ih =>
      rw [List.forall_mem_cons, ofLines]
      cases hp : parts? token (Text.trimLeft line) with
      | none =>
          have hline : Readable token line := by simp [Readable, hp]
          simp only [ih, hline, true_and]
      | some found =>
          obtain ⟨path, digits⟩ := found
          have hline : Readable token line ↔ digits.length ≤ Numeral.limit := by simp [Readable, hp]
          rw [hline, ← ih (index + 1)]
          by_cases hd : digits.length ≤ Numeral.limit
          · simp only [Numeral.ofDigits_of_le hd, hd, true_and]
            cases ofLines token (index + 1) lines with
            | ok ms => exact ⟨fun _ => ⟨_, rfl⟩, fun _ => ⟨_, rfl⟩⟩
            | error e =>
                constructor
                · rintro ⟨ms, ⟨⟩⟩
                · rintro ⟨ms, ⟨⟩⟩
          · simp only [Numeral.ofDigits_of_not_le hd, hd, false_and, iff_false]
            rintro ⟨ms, ⟨⟩⟩

/-- The line is the marker. -/
def Reads (token line : List Char) (m : Marker) : Prop :=
  ∃ path digits, parts? token (Text.trimLeft line) = some (path, digits) ∧ m.path = String.ofList path ∧
    m.line = Numeral.value digits

theorem Reads.eq {m m' : Marker} (h : Reads token line m) (h' : Reads token line m') (hindex : m.index = m'.index) :
    m = m' := by
  obtain ⟨path, digits, hp, hpath, hline⟩ := h
  obtain ⟨path', digits', hp', hpath', hline'⟩ := h'
  cases hp.symm.trans hp'
  cases m
  cases m'
  simp_all

theorem ofLines_cons {index : Nat} {ms : List Marker} (h : ofLines token index (line :: lines) = .ok ms) :
    ∃ rest, ofLines token (index + 1) lines = .ok rest ∧
      ((∀ m, ¬ Reads token line m) ∧ ms = rest ∨ ∃ m, Reads token line m ∧ m.index = index ∧ ms = m :: rest) := by
  rw [ofLines] at h
  cases hp : parts? token (Text.trimLeft line) with
  | none =>
      simp only [hp] at h
      exact ⟨ms, h, .inl ⟨by simp [Reads, hp], rfl⟩⟩
  | some found =>
      obtain ⟨path, digits⟩ := found
      simp only [hp] at h
      by_cases hd : digits.length ≤ Numeral.limit
      · rw [Numeral.ofDigits_of_le hd] at h
        obtain ⟨n, hn, h⟩ := bind_eq_ok.mp h
        cases hn
        obtain ⟨rest, hrest, h⟩ := bind_eq_ok.mp h
        cases h
        exact ⟨rest, hrest, .inr ⟨_, ⟨path, digits, hp, rfl, rfl⟩, rfl, rfl⟩⟩
      · rw [Numeral.ofDigits_of_not_le hd] at h
        cases h

theorem mem_ofLines {index : Nat} {ms : List Marker} {m : Marker} (h : ofLines token index lines = .ok ms)
    (hm : m ∈ ms) : ∃ k line, lines[k]? = some line ∧ Reads token line m ∧ m.index = (index + k : Nat) := by
  induction lines generalizing index ms with
  | nil =>
      cases h
      cases hm
  | cons line lines ih =>
      have hlater : ∀ {rest}, ofLines token (index + 1) lines = .ok rest → m ∈ rest →
          ∃ k line', (line :: lines)[k]? = some line' ∧ Reads token line' m ∧ m.index = (index + k : Nat) := by
        intro rest hrest hm
        obtain ⟨k, line', hk, hread, hindex⟩ := ih hrest hm
        exact ⟨k + 1, line', hk, hread, by rw [hindex, Nat.add_right_comm, Nat.add_assoc]⟩
      obtain ⟨rest, hrest, ⟨-, rfl⟩ | ⟨m', hread, hindex, rfl⟩⟩ := ofLines_cons h
      · exact hlater hrest hm
      · rcases List.mem_cons.mp hm with rfl | hm
        · exact ⟨0, line, rfl, hread, hindex⟩
        · exact hlater hrest hm

theorem mem_ofLines_of_reads {index k : Nat} {ms : List Marker} {m : Marker} (h : ofLines token index lines = .ok ms)
    (hk : lines[k]? = some line) (hread : Reads token line m) (hindex : m.index = (index + k : Nat)) : m ∈ ms := by
  induction lines generalizing index k ms with
  | nil => cases hk
  | cons first lines ih =>
      obtain ⟨rest, hrest, hfirst⟩ := ofLines_cons h
      cases k with
      | zero =>
          cases hk
          rcases hfirst with ⟨hnone, -⟩ | ⟨m', hread', hindex', rfl⟩
          · exact absurd hread (hnone m)
          · rw [hread.eq hread' (hindex.trans hindex'.symm)]
            exact List.mem_cons_self
      | succ k =>
          have hm := ih hrest hk (by rw [hindex, Nat.add_right_comm, Nat.add_assoc])
          rcases hfirst with ⟨-, rfl⟩ | ⟨m', -, -, rfl⟩
          · exact hm
          · exact List.mem_cons_of_mem m' hm

theorem ofLines_increasing {index : Nat} {ms : List Marker} (h : ofLines token index lines = .ok ms) :
    ms.Pairwise (·.index < ·.index) := by
  induction lines generalizing index ms with
  | nil =>
      cases h
      exact .nil
  | cons line lines ih =>
      obtain ⟨rest, hrest, ⟨-, rfl⟩ | ⟨m, -, hindex, rfl⟩⟩ := ofLines_cons h
      · exact ih hrest
      · refine List.pairwise_cons.mpr ⟨fun m' hm' => ?_, ih hrest⟩
        obtain ⟨k, -, -, -, hindex'⟩ := mem_ofLines hrest hm'
        omega

theorem Reads.trimLeft_ne_nil {m : Marker} (h : Reads token line m) : Text.trimLeft line ≠ [] := by
  obtain ⟨path, digits, hp, -, -⟩ := h
  intro hnil
  rw [hnil] at hp
  cases token <;> cases hp

theorem resolve?_isSome {markers : List Marker} {line : Int} :
    (resolve? markers line).isSome ↔ ∃ m ∈ markers, m.index ≤ line := by
  simp [resolve?, governing?]

end Backmap.Marker
