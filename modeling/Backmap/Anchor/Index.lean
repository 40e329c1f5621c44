import Backmap.Directive

/-!
# Anchor indices

The lines of a source that carry a directive comment. A compiler tends to report a place some lines behind the
contract that it concerns, so a reported line is snapped onto the nearest directive above it.
-/

namespace Backmap

/-- The first position in `[low, high)` whose element does not satisfy `p`, where those that satisfy it come
first: a search by halves. -/
def bisect (p : Int → Bool) (xs : Array Int) (low high : Nat) : Nat :=
  if low < high then
    let mid := (low + high) / 2
    if p (xs.getD mid 0) then bisect p xs (mid + 1) high else bisect p xs low mid
  else low
termination_by high - low

structure AnchorIndex where
  /-- Line indices, counted from zero, in increasing order. -/
  lines : List Int := []
  deriving DecidableEq, Repr

namespace AnchorIndex

open Text

def size (a : AnchorIndex) : Nat := a.lines.length

def contains (a : AnchorIndex) (line : Int) : Bool :=
  let xs := a.lines.toArray
  xs[bisect (· < line) xs 0 xs.size]? == some line

/-- The greatest indexed line that is not behind `line`. -/
def nearest? (a : AnchorIndex) (line : Int) : Option Int :=
  let xs := a.lines.toArray
  match bisect (· ≤ line) xs 0 xs.size with
  | 0 => none
  | k + 1 => xs[k]?

/-- The indexed line that a reported line belongs to: itself, or the nearest one before it if that is at most
`reach` lines away. -/
def snap? (a : AnchorIndex) (line reach : Int) : Option Int :=
  if a.contains line then some line
  else (a.nearest? line).filter fun anchor => line - anchor ≤ reach

/-- Whether one of the tokens stands here, behind any number of the blanks that come first. -/
def tokenAhead (tokens : List (List Char)) : List Char → Bool
  | [] => tokens.any List.isEmpty
  | c :: cs => tokens.any (·.isPrefixOf (c :: cs)) || (isBlank c && tokenAhead tokens cs)

/-- Whether a comment with one of the tokens starts in a line. -/
def marks (tokens : List (List Char)) : List Char → Bool
  | [] => false
  | c :: cs =>
    (match after? ['/', '/'] (c :: cs) with
      | some rest => tokenAhead tokens rest
      | none => false) || marks tokens cs

/-- The tokens that count: with none given, every comment does. -/
def effective (tokens : List String) : List (List Char) :=
  if tokens = [] then [[]] else tokens.map String.toList

/-- The indices, from `index` on, of the lines that satisfy `p`. -/
def indicesWhere (p : List Char → Bool) : Nat → List (List Char) → List Int
  | _, [] => []
  | index, line :: rest =>
    if p line then (index : Int) :: indicesWhere p (index + 1) rest else indicesWhere p (index + 1) rest

/-- The index of a source text. -/
def build (text : String) (tokens : List String) : AnchorIndex :=
  ⟨indicesWhere (marks (effective tokens)) 0 (Text.lines text.toList)⟩

end AnchorIndex

end Backmap
