import Backmap.Text.Blank
import Backmap.Text.Digit

/-!
# Search patterns

Regular expressions that are only ever searched for, so a match is a yes or no.
-/

namespace Backmap

/-- A set of characters, as the parts of a bracket expression. -/
inductive Pattern.Member where
  | range (low high : Char)
  | blank (positive : Bool)
  | digit (positive : Bool)
  deriving DecidableEq, Repr

def Pattern.Member.holds : Member → Char → Bool
  | range low high, c => low ≤ c && c ≤ high
  | blank positive, c => Text.isBlank c == positive
  | digit positive, c => Text.isDigit c == positive

inductive Pattern where
  /-- Matches no characters. -/
  | empty
  /-- One character that is in one of the members, or in none of them. -/
  | one (positive : Bool) (members : List Pattern.Member)
  | seq (p q : Pattern)
  /-- Either pattern; a match of the first is preferred. -/
  | alt (p q : Pattern)
  /-- Any number of repetitions; more are preferred if `greedy`, else fewer. -/
  | star (greedy : Bool) (p : Pattern)
  /-- Only the preferred one of the matches of a pattern. -/
  | preferred (p : Pattern)
  /-- The beginning of the text. -/
  | atStart
  /-- The end of the text, or, when a line feed may follow, right before a final one. -/
  | atEnd (orNewline : Bool)
  deriving DecidableEq, Repr

namespace Pattern

/-- A place in a text: how many characters are behind it, and those ahead. -/
structure Cursor where
  behind : Nat
  ahead : List Char

/-- What follows a match: where it leads from the end of the match, if it succeeds. -/
abbrev Goal := Cursor → Option Cursor

/-- Repeats `step` and then goes on with `k`. A repetition that did not move on is the last. -/
def repeatStep (greedy : Bool) (step : Goal → Goal) (k : Goal) : Nat → Goal
  | 0, c => k c
  | n + 1, c =>
    let again : Goal := step fun d => if c.behind < d.behind then repeatStep greedy step k n d else k d
    if greedy then (again c).or (k c) else (k c).or (again c)

/-- Where the pattern and then `k` lead from a cursor. Of several matches the first, in the order of preference, from
which `k` succeeds is taken. -/
def matchThen : Pattern → Goal → Goal
  | empty, k, c => k c
  | one positive members, k, c =>
    match c.ahead with
    | [] => none
    | x :: rest => if (members.any (·.holds x)) == positive then k ⟨c.behind + 1, rest⟩ else none
  | seq p q, k, c => matchThen p (matchThen q k) c
  | alt p q, k, c => (matchThen p k c).or (matchThen q k c)
  | star greedy p, k, c => repeatStep greedy (matchThen p) k c.ahead.length c
  | preferred p, k, c => (matchThen p some c).bind k
  | atStart, k, c => if c.behind = 0 then k c else none
  | atEnd orNewline, k, c => if c.ahead = [] ∨ (orNewline ∧ c.ahead = ['\n']) then k c else none

/-- Whether the pattern matches somewhere at or after a cursor. -/
def searchFrom (p : Pattern) (behind : Nat) : List Char → Bool
  | [] => (matchThen p some ⟨behind, []⟩).isSome
  | c :: cs => (matchThen p some ⟨behind, c :: cs⟩).isSome || searchFrom p (behind + 1) cs

/-- Whether the pattern occurs in a text. -/
def search (p : Pattern) (cs : List Char) : Bool := searchFrom p 0 cs

def literal (c : Char) : Pattern := one true [.range c c]

/-- Any character but a line feed. -/
def anyChar : Pattern := one false [.range '\n' '\n']

/-- `p`, `n` times over, and then `q`. -/
def times (p : Pattern) (q : Pattern) : Nat → Pattern
  | 0 => q
  | n + 1 => seq p (times p q n)

/-- `p` at most `n` times. -/
def upTo (greedy : Bool) (p : Pattern) : Nat → Pattern
  | 0 => empty
  | n + 1 => if greedy then alt (seq p (upTo greedy p n)) empty else alt empty (seq p (upTo greedy p n))

/-- `p` at least `low` times, and at most `high` times if there is a bound. -/
def counted (greedy : Bool) (p : Pattern) (low : Nat) (high : Option Nat) : Pattern :=
  match high with
  | none => times p (star greedy p) low
  | some high => times p (upTo greedy p (high - low)) low

/-- Which of the possible numbers of repetitions is wanted. -/
inductive Wish where
  | most
  | fewest
  /-- As many as there are, each matched in its preferred way, and nothing else. -/
  | all
  deriving DecidableEq, Repr

/-- `p` repeated as wished. -/
def repeated (p : Pattern) (low : Nat) (high : Option Nat) : Wish → Pattern
  | .most => counted true p low high
  | .fewest => counted false p low high
  | .all => preferred (counted true (preferred p) low high)

end Pattern

end Backmap
