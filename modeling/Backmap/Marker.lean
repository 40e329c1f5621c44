import Backmap.Fault
import Backmap.Text.Lines

/-!
# Positional markers

A marker line in a generated file says which source line the line behind it is; from there on the lines
count up to the next marker.
-/

namespace Backmap

structure Marker where
  /-- The line of the marker itself, counted from zero. -/
  index : Int
  path : String
  /-- The number that the marker gives to the line behind it, counted from one. -/
  line : Int
  deriving DecidableEq, Repr

namespace Marker

open Text

/-- Reads `:line[:column]` and blanks up to the end of a line; gives the digits of the line number. -/
def tail? (cs : List Char) : Option (List Char) :=
  match cs with
  | ':' :: cs =>
    let line := cs.takeWhile isDigit
    let rest := cs.dropWhile isDigit
    if line = [] then none
    else if allBlank rest then some line
    else
      match rest with
      | ':' :: rest =>
        if rest.takeWhile isDigit ≠ [] ∧ allBlank (rest.dropWhile isDigit) then some line else none
      | _ => none
  | _ => none

/-- Finds the shortest path longer than `taken`, its beginning with the last character first, that ends in no
blank and that a position follows. -/
def longer? (taken : List Char) : List Char → Option (List Char × List Char)
  | [] => none
  | c :: cs =>
    match if isBlank c then none else tail? cs with
    | some line => some ((c :: taken).reverse, line)
    | none => longer? (c :: taken) cs

/-- Splits a path and its position. The shortest path of at least two characters is preferred to one of a
single character. -/
def pathAndLine? : List Char → Option (List Char × List Char)
  | [] => none
  | c :: cs =>
    if isBlank c then none else (longer? [c] cs).or ((tail? cs).map fun line => ([c], line))

/-- The path and the digits of a marker line without its indentation. -/
def parts? (token line : List Char) : Option (List Char × List Char) :=
  match after? token line with
  | none => none
  | some rest =>
    match rest with
    | c :: _ => if isBlank c then pathAndLine? (trimLeft rest) else none
    | [] => none

/-- The markers of lines from `index` on. -/
def ofLines (token : List Char) : Nat → List (List Char) → Except Fault (List Marker)
  | _, [] => .ok []
  | index, line :: lines =>
    match parts? token (trimLeft line) with
    | none => ofLines token (index + 1) lines
    | some (path, digits) => do
      let n ← (Numeral.ofDigits digits).mapError .numeral
      let rest ← ofLines token (index + 1) lines
      .ok (⟨index, String.ofList path, n⟩ :: rest)

/-- The markers of a text, from top to bottom. -/
def findAll (text token : String) : Except Fault (List Marker) :=
  ofLines token.toList 0 (lines text.toList)

/-- The last marker at or before a line. -/
def governing? (markers : List Marker) (index : Int) : Option Marker :=
  markers.reverse.find? (·.index ≤ index)

/-- The source line, counted from zero, of a line of a generated file. -/
def resolve? (markers : List Marker) (index : Int) : Option Int :=
  (governing? markers index).map fun m => max 0 ((m.line - 1) + (index - m.index - 1))

end Marker

end Backmap
