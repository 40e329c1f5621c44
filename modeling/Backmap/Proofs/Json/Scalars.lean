import Backmap.Json.Reader
import Backmap.Json.Writer
import Backmap.Proofs.Numeral
import Backmap.Proofs.Text.Runs

/-!
# Strings and numbers in JSON

What is written of a string or of a whole number is read back as it was, whatever stands behind it.
-/

namespace Backmap.Json

open Text

variable {dialect : Dialect}

/-! ## Code units -/

theorem hexValue?_hexDigit {d : Nat} (h : d < 16) : hexValue? (hexDigit d) = some d := by
  have hall : ∀ d, d < 16 → hexValue? (hexDigit d) = some d := by decide
  exact hall d h

theorem hex_four (n : Nat) :
    hex 4 n = [hexDigit (n / 16 / 16 / 16 % 16), hexDigit (n / 16 / 16 % 16), hexDigit (n / 16 % 16),
      hexDigit (n % 16)] := rfl

theorem hex4?_hex {n : Nat} (h : n < 0x10000) (rest : List Char) : hex4? (hex 4 n ++ rest) = some n := by
  have hlt (k : Nat) : k % 16 < 16 := Nat.mod_lt k (by decide)
  simp only [hex_four, List.cons_append, hex4?, hexValue?_hexDigit (hlt _), Option.bind_eq_bind, Option.bind_some,
    Option.some.injEq]
  omega

theorem drop_hex (n : Nat) (rest : List Char) : (hex 4 n ++ rest).drop 4 = rest := rfl

theorem codeUnit_hex {n : Nat} (h : n < 0x10000) (hhigh : isHighSurrogate n = false) {rest : List Char}
    (hrest : rest ≠ []) : codeUnit dialect (hex 4 n ++ rest) = .ok (unitChar dialect n, 4) := by
  obtain ⟨c, cs, rfl⟩ := List.exists_cons_of_ne_nil hrest
  simp only [codeUnit, drop_hex, hex4?_hex h, hhigh]
  split <;> simp

theorem codeUnit_pair {high low : Nat} (hhigh : isHighSurrogate high = true) (hlow : isLowSurrogate low = true)
    {rest : List Char} (hrest : rest ≠ []) :
    codeUnit dialect (hex 4 high ++ (unitEscape low ++ rest)) =
      .ok (Char.ofNat (0x10000 + (high - 0xd800) * 0x400 + (low - 0xdc00)), 10) := by
  have hh : high < 0x10000 := by
    simp only [isHighSurrogate, Bool.and_eq_true, decide_eq_true_eq] at hhigh
    omega
  have hl : low < 0x10000 := by
    simp only [isLowSurrogate, Bool.and_eq_true, decide_eq_true_eq] at hlow
    omega
  simp only [codeUnit, drop_hex, hex4?_hex hh, unitEscape, List.cons_append, hhigh, hex4?_hex hl, hlow, hrest,
    ne_eq, not_false_eq_true, and_self, if_true]

/-! ## Characters -/

theorem toNat_valid (c : Char) : c.toNat < 0xd800 ∨ 0xdfff < c.toNat ∧ c.toNat < 0x110000 := c.valid

theorem unitChar_toNat (c : Char) : unitChar dialect c.toNat = c := by
  have hvalid := toNat_valid c
  have hnone : (isHighSurrogate c.toNat || isLowSurrogate c.toNat) = false := by
    simp only [isHighSurrogate, isLowSurrogate, Bool.or_eq_false_iff, Bool.and_eq_false_iff, decide_eq_false_iff_not]
    omega
  rw [unitChar, hnone]
  exact Char.ofNat_toNat c

theorem string_skip (dialect : Dialect) (start done front rest : List Char) :
    string dialect start front.length done (front ++ rest) = string dialect start 0 done rest := by
  induction front with
  | nil => rfl
  | cons c front ih =>
      rw [List.cons_append, List.length_cons, string]
      exact ih

/-- A unit behind a backslash, up to where the reader goes on. -/
theorem string_unitEscape {start done rest : List Char} {c : Char} {n : Nat} (tail : List Char)
    (h : codeUnit dialect (hex 4 n ++ (tail ++ rest)) = .ok (c, 4 + tail.length)) :
    string dialect start 0 done (unitEscape n ++ (tail ++ rest)) = string dialect start 0 (c :: done) rest := by
  have hskip := string_skip dialect start (c :: done) ('u' :: (hex 4 n ++ tail)) rest
  have hlength : ('u' :: (hex 4 n ++ tail)).length = 4 + tail.length + 1 := by
    simp [hex_four]
    omega
  rw [hlength, List.cons_append, List.append_assoc] at hskip
  rw [unitEscape, List.cons_append, List.cons_append, string]
  simp only [Char.reduceEq, if_false, if_true, h]
  exact hskip

theorem string_escapeChar (start done : List Char) (c : Char) {rest : List Char} (hrest : rest ≠ []) :
    string dialect start 0 done (escapeChar c ++ rest) = string dialect start 0 (c :: done) rest := by
  have hvalid := toNat_valid c
  unfold escapeChar
  split
  · next h => subst h; rfl
  split
  · next h => subst h; rfl
  split
  · next h => subst h; rfl
  split
  · next h => subst h; rfl
  split
  · next h => subst h; rfl
  split
  · next h => subst h; rfl
  split
  · next h => subst h; rfl
  · next hquote hslash _ _ _ _ _ =>
    dsimp only
    split
    · next hplain =>
      rw [List.singleton_append, string.eq_def]
      simp only [hquote, hslash, if_false, if_neg (Nat.not_lt.mpr hplain.1)]
    · split
      · next hunit =>
        have hhigh : isHighSurrogate c.toNat = false := by
          simp only [isHighSurrogate, Bool.and_eq_false_iff, decide_eq_false_iff_not]
          omega
        have hread : codeUnit dialect _ = _ := codeUnit_hex hunit hhigh hrest
        rw [unitChar_toNat] at hread
        exact string_unitEscape [] hread
      · next hunit =>
        -- beyond the basic plane the two halves have ten bits each
        have hhigh : isHighSurrogate (0xd800 + (c.toNat - 0x10000) / 0x400) = true := by
          simp only [isHighSurrogate, Bool.and_eq_true, decide_eq_true_eq]
          omega
        have hlow : isLowSurrogate (0xdc00 + (c.toNat - 0x10000) % 0x400) = true := by
          simp only [isLowSurrogate, Bool.and_eq_true, decide_eq_true_eq]
          omega
        have hread : codeUnit dialect _ = _ := codeUnit_pair hhigh hlow hrest
        have hsum : 0x10000 + (0xd800 + (c.toNat - 0x10000) / 0x400 - 0xd800) * 0x400 +
            (0xdc00 + (c.toNat - 0x10000) % 0x400 - 0xdc00) = c.toNat := by omega
        rw [hsum, Char.ofNat_toNat] at hread
        rw [List.append_assoc]
        exact string_unitEscape (unitEscape _) hread

theorem string_flatMap (start done cs rest : List Char) :
    string dialect start 0 done (cs.flatMap escapeChar ++ '"' :: rest) =
      .ok (String.ofList (done.reverse ++ cs), rest) := by
  induction cs generalizing done with
  | nil => simp [string]
  | cons c cs ih =>
      rw [List.flatMap_cons, List.append_assoc, string_escapeChar start done c (by simp), ih (c :: done),
        List.reverse_cons, List.append_assoc, List.singleton_append]

theorem string_write (start : List Char) (s : String) (rest : List Char) :
    string dialect start 0 [] (s.toList.flatMap escapeChar ++ '"' :: rest) = .ok (s, rest) := by
  rw [string_flatMap, List.reverse_nil, List.nil_append, String.ofList_toList]

/-! ## Numbers -/

/-- A text that goes on with no number. -/
def Stops (rest : List Char) : Prop :=
  ∀ c ∈ rest.head?, isAsciiDigit c = false ∧ c ≠ '.' ∧ c ≠ 'e' ∧ c ≠ 'E'

theorem fraction?_of_stops {rest : List Char} (h : Stops rest) : fraction? rest = none := by
  cases rest with
  | nil => rfl
  | cons c rest =>
      unfold fraction?
      split
      · next he => exact absurd (List.cons.inj he).1 (h c rfl).2.1
      · rfl

theorem exponent?_of_stops {rest : List Char} (h : Stops rest) : exponent? rest = none := by
  cases rest with
  | nil => rfl
  | cons c rest =>
      obtain ⟨-, -, he, hE⟩ := h c rfl
      exact if_neg fun hc => hc.elim he hE

theorem whole?_run {ds rest : List Char} (hds : Run isAsciiDigit ds) (hzero : ds.head? ≠ some '0' ∨ ds = ['0'])
    (hrest : Stops rest) : whole? (ds ++ rest) = some (ds, rest) := by
  obtain ⟨d, tail, rfl⟩ := List.exists_cons_of_ne_nil hds.1
  have hstop : ∀ c ∈ rest.head?, isAsciiDigit c = false := fun c hc => (hrest c hc).1
  by_cases hd : d = '0'
  · subst hd
    rcases hzero with h | h
    · exact absurd rfl h
    · rw [h]
      rfl
  · unfold whole?
    split
    · next he => exact absurd (List.cons.inj he).1 hd
    · rw [takeWhile_run hds.2 hstop, dropWhile_run hds.2 hstop]
      exact if_neg hds.1

theorem unsigned_whole {cs ds rest : List Char} (h : whole? cs = some (ds, rest)) (hrest : Stops rest)
    (start : List Char) (negative : Bool) : unsigned start negative cs =
      ((Numeral.ofDigits ds).mapError .number).map fun n : Nat => (int (if negative then -n else n), rest) := by
  simp only [unsigned, h, fraction?_of_stops hrest, Option.elim_none, exponent?_of_stops hrest]
  cases Numeral.ofDigits ds with
  | error e => rfl
  | ok n => rfl

theorem whole?_digits (n : Nat) {rest : List Char} (h : Stops rest) :
    whole? (Numeral.digits n ++ rest) = some (Numeral.digits n, rest) := by
  refine whole?_run ⟨Numeral.digits_ne_nil n, fun c => Numeral.isDigit_of_mem_digits⟩ ?_ h
  by_cases hn : n = 0
  · subst hn
    exact .inr rfl
  · exact .inl (Numeral.head?_digits hn)

theorem number_of_isDigit {d : Char} (hd : d.isDigit = true) (cs : List Char) :
    number (d :: cs) = unsigned (d :: cs) false (d :: cs) := by
  unfold number
  split
  · next he =>
    rw [(List.cons.inj he).1] at hd
    cases hd
  · rfl

theorem number_write {n : Int} (hfits : Numeral.fits n = true) {rest : List Char} (hrest : Stops rest) :
    number ((Numeral.write n).toList ++ rest) = .ok (int n, rest) := by
  have hof : Numeral.ofDigits (Numeral.digits n.natAbs) = .ok n.natAbs := by
    rw [Numeral.ofDigits_of_le (of_decide_eq_true hfits), Numeral.value_digits]
  have hunsigned (start : List Char) (negative : Bool) : unsigned start negative (Numeral.digits n.natAbs ++ rest) =
      .ok (int (if negative then -n.natAbs else n.natAbs), rest) := by
    rw [unsigned_whole (whole?_digits n.natAbs hrest) hrest, hof]
    rfl
  rw [Numeral.toList_write]
  split
  · next hneg =>
    have hsign : -(n.natAbs : Int) = n := by omega
    rw [List.cons_append, List.nil_append, List.cons_append, number, hunsigned]
    simp only [if_true, hsign]
  · next hpos =>
    have hsign : (n.natAbs : Int) = n := by omega
    obtain ⟨d, ds, hds⟩ := List.exists_cons_of_ne_nil (Numeral.digits_ne_nil n.natAbs)
    have hd : d.isDigit = true := Numeral.isDigit_of_mem_digits (hds ▸ List.mem_cons_self)
    rw [hds, List.cons_append] at hunsigned
    rw [List.nil_append, hds, List.cons_append, number_of_isDigit hd, hunsigned]
    simp only [Bool.false_eq_true, if_false, hsign]

end Backmap.Json
