import Backmap.Proofs.Record
import Mathlib.Data.Option.Basic

/-!
# Noise

What the default settings take for noise: the header of a package, and the summary behind the last error. Neither is
found in a line that does not begin with `#` and that ends in a bracket.
-/

namespace Backmap

namespace Pattern

/-! ## Searches that fail -/

/-- No set of characters in the pattern has `x`. -/
def avoids (x : Char) : Pattern → Bool
  | one positive members => members.any (·.holds x) != positive
  | seq p q => p.avoids x && q.avoids x
  | alt p q => p.avoids x && q.avoids x
  | star _ p => p.avoids x
  | preferred p => p.avoids x
  | _ => true

/-- Before it can have got past an `x`, the pattern asks for the end of the text. -/
def barredBy (x : Char) : Pattern → Bool
  | seq p q => p.barredBy x || p.avoids x && q.barredBy x
  | alt p q => p.barredBy x && q.barredBy x
  | preferred p => p.barredBy x
  | atEnd _ => x != '\n'
  | _ => false

variable {x : Char} {p q : Pattern} {k : Goal} {c d : Cursor}

theorem exists_of_repeatStep {I : Cursor → Prop} {step : Goal → Goal}
    (hstep : ∀ k c d, I c → step k c = some d → ∃ c', I c' ∧ k c' = some d) {greedy : Bool} {n : Nat} (hc : I c)
    (h : repeatStep greedy step k n c = some d) : ∃ c', I c' ∧ k c' = some d := by
  induction n generalizing c with
  | zero => exact ⟨c, hc, h⟩
  | succ n ih =>
      have hagain (h : step (fun d => if c.behind < d.behind then repeatStep greedy step k n d else k d) c = some d) :
          ∃ c', I c' ∧ k c' = some d := by
        obtain ⟨c', hc', hk⟩ := hstep _ c d hc h
        split at hk
        · exact ih hc' hk
        · exact ⟨c', hc', hk⟩
      cases greedy with
      | true =>
          rcases Option.or_eq_some_iff.mp h with h | ⟨-, h⟩
          · exact hagain h
          · exact ⟨c, hc, h⟩
      | false =>
          rcases Option.or_eq_some_iff.mp h with h | ⟨-, h⟩
          · exact ⟨c, hc, h⟩
          · exact hagain h

/-- A pattern that avoids the last character of a text does not get past it. -/
theorem exists_of_matchThen (hp : p.avoids x = true) (hc : c.ahead.getLast? = some x) (h : matchThen p k c = some d) :
    ∃ c' : Cursor, c'.ahead.getLast? = some x ∧ k c' = some d := by
  induction p generalizing k c d with
  | empty => exact ⟨c, hc, h⟩
  | one positive members =>
      simp only [matchThen] at h
      split at h
      · cases h
      · next y rest hahead =>
        split at h
        · next hy =>
          rw [hahead] at hc
          cases rest with
          | nil =>
              -- the only character left is the one that is avoided
              obtain rfl : y = x := Option.some.inj hc
              rw [avoids, bne, hy] at hp
              cases hp
          | cons z rest => exact ⟨_, hc, h⟩
        · cases h
  | seq p q ihp ihq =>
      obtain ⟨hp, hq⟩ := Bool.and_eq_true_iff.mp hp
      obtain ⟨c', hc', h'⟩ := ihp hp hc h
      exact ihq hq hc' h'
  | alt p q ihp ihq =>
      obtain ⟨hp, hq⟩ := Bool.and_eq_true_iff.mp hp
      rcases Option.or_eq_some_iff.mp h with h | ⟨-, h⟩
      · exact ihp hp hc h
      · exact ihq hq hc h
  | star greedy p ih => exact exists_of_repeatStep (fun k c d hc h => ih hp hc h) hc h
  | preferred p ih =>
      obtain ⟨e, he, hk⟩ := Option.bind_eq_some_iff.mp h
      obtain ⟨c', hc', ⟨⟩⟩ := ih hp hc he
      exact ⟨_, hc', hk⟩
  | atStart =>
      simp only [matchThen] at h
      split at h
      · exact ⟨c, hc, h⟩
      · cases h
  | atEnd orNewline =>
      simp only [matchThen] at h
      split at h
      · exact ⟨c, hc, h⟩
      · cases h

theorem matchThen_of_barredBy (hp : p.barredBy x = true) (hc : c.ahead.getLast? = some x) : matchThen p k c = none := by
  induction p generalizing k c with
  | seq p q ihp ihq =>
      rcases Bool.or_eq_true_iff.mp hp with hp | hpq
      · exact ihp hp hc
      · obtain ⟨hp, hq⟩ := Bool.and_eq_true_iff.mp hpq
        refine Option.eq_none_iff_forall_ne_some.mpr fun d hd => ?_
        obtain ⟨c', hc', hd⟩ := exists_of_matchThen hp hc hd
        rw [ihq hq hc'] at hd
        cases hd
  | alt p q ihp ihq =>
      obtain ⟨hp, hq⟩ := Bool.and_eq_true_iff.mp hp
      rw [matchThen, ihp hp hc, ihq hq hc]
      rfl
  | preferred p ih => rw [matchThen, ih hp hc]; rfl
  | atEnd orNewline =>
      refine if_neg ?_
      rintro (hend | ⟨-, hend⟩)
      · rw [hend] at hc
        cases hc
      · rw [hend] at hc
        cases hc
        cases hp
  | _ => cases hp

theorem searchFrom_of_barredBy (hp : p.barredBy x = true) (hempty : ∀ n, matchThen p some ⟨n, []⟩ = none) {n : Nat}
    {cs : List Char} (hcs : cs.getLast? = some x) : p.searchFrom n cs = false := by
  induction cs generalizing n with
  | nil => cases hcs
  | cons c cs ih =>
      have hmatch : matchThen p some ⟨n, c :: cs⟩ = none := matchThen_of_barredBy hp hcs
      rw [searchFrom, hmatch, Option.isSome_none, Bool.false_or]
      cases cs with
      | nil => rw [searchFrom, hempty, Option.isSome_none]
      | cons c' cs => exact ih hcs

theorem searchFrom_atStart_seq (n : Nat) (cs : List Char) : (seq atStart q).searchFrom (n + 1) cs = false := by
  induction cs generalizing n with
  | nil => rfl
  | cons c cs ih => exact ih (n + 1)

theorem search_atStart_seq (c : Char) (cs : List Char) :
    (seq atStart q).search (c :: cs) = (matchThen q some ⟨0, c :: cs⟩).isSome := by
  rw [search, searchFrom, searchFrom_atStart_seq, Bool.or_false]
  rfl

/-- A text, and behind it what `rest` matches. -/
def word (text : String) (rest : Pattern) : Pattern :=
  text.toList.foldr (fun c p => .seq (.one true [.range c c]) p) rest

end Pattern

/-! ## The default settings -/

namespace Record

def header : Pattern := .seq .atStart (.word "#" (.seq (.one true [.blank true]) .empty))

def summary : Pattern :=
  .word "too many errors" (.seq (.star true (.one true [.blank true])) (.seq (.atEnd true) .empty))

/-- What the default settings take for noise. -/
def chatter : List Search := [header.search, summary.search]

theorem readPatterns_default : readPatterns ({} : Settings).noisePatterns = .ok chatter := by
  have hheader : Pattern.read "^#\\s" = .ok header := by cbv
  have hsummary : Pattern.read "too many errors\\s*$" = .ok summary := by cbv
  simp only [readPatterns, Noise.ofText, hheader, hsummary]
  rfl

/-- A line is quiet if it begins with a path from the root and ends in a bracket. -/
theorem chatter_quiet {line : List Char} (hfirst : line.head? = some '/') (hlast : line.getLast? = some ']') :
    ∀ search ∈ chatter, search line = false := by
  obtain ⟨rest, rfl⟩ := List.head?_eq_some_iff.mp hfirst
  refine List.forall_mem_cons.mpr ⟨?_, List.forall_mem_singleton.mpr ?_⟩
  · rw [header, Pattern.search_atStart_seq]
    rfl
  · exact Pattern.searchFrom_of_barredBy (by rfl) (fun n => rfl) hlast

end Record

end Backmap
