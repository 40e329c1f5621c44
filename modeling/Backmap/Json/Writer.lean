import Backmap.Json.Basic
import Backmap.Decimal.Shortest
import Backmap.Text.Quoted

/-!
# Writing JSON

All that is written is ASCII.
-/

namespace Backmap.Json

/-- One code unit of sixteen bits. -/
def unitEscape (n : Nat) : List Char := '\\' :: 'u' :: Text.hex 4 n

/-- One character of a string. Beyond the basic plane it takes the two halves of a pair. -/
def escapeChar (c : Char) : List Char :=
  if c = '"' then ['\\', '"']
  else if c = '\\' then ['\\', '\\']
  else if c = '\n' then ['\\', 'n']
  else if c = '\r' then ['\\', 'r']
  else if c = '\t' then ['\\', 't']
  else if c = '\x0c' then ['\\', 'f']
  else if c = '\x08' then ['\\', 'b']
  else
    let n := c.toNat
    if 0x20 ≤ n ∧ n < 0x7f then [c]
    else if n < 0x10000 then unitEscape n
    else unitEscape (0xd800 + (n - 0x10000) / 0x400) ++ unitEscape (0xdc00 + (n - 0x10000) % 0x400)

def writeString (s : String) : List Char :=
  '"' :: s.toList.flatMap escapeChar ++ ['"']

def floatText (x : Binary64) : String := x.textWith "NaN" "Infinity"

/-- The parts of a container: its items with a separator, between brackets, after and before `gap`s. -/
def enclose (opening closing : Char) (separator before behind : List Char) (parts : List (List Char)) :
    List Char :=
  match parts with
  | [] => [opening, closing]
  | parts => opening :: before ++ separator.intercalate parts ++ behind ++ [closing]

/-- The line feed and the margin before an item `depth` levels deep. -/
def margin (depth : Nat) : List Char := '\n' :: List.replicate (2 * depth) ' '

/-- How the items of a container at a depth are set apart: on one line, or each on its own. -/
structure Style where
  separator : Nat → List Char
  before : Nat → List Char
  behind : Nat → List Char

/-- All on one line. -/
def oneLine : Style := ⟨fun _ => [',', ' '], fun _ => [], fun _ => []⟩

/-- Every item on a line of its own, two spaces further in. -/
def indented : Style := ⟨fun depth => ',' :: margin (depth + 1), fun depth => margin (depth + 1), margin⟩

mutual

def writeAt (style : Style) (depth : Nat) : Json → List Char
  | null => ['n', 'u', 'l', 'l']
  | bool true => ['t', 'r', 'u', 'e']
  | bool false => ['f', 'a', 'l', 's', 'e']
  | int n => (Numeral.write n).toList
  | float x => (floatText x).toList
  | str s => writeString s
  | arr items =>
    enclose '[' ']' (style.separator depth) (style.before depth) (style.behind depth)
      (writeItems style (depth + 1) items)
  | obj members =>
    enclose '\x7b' '\x7d' (style.separator depth) (style.before depth) (style.behind depth)
      (writeMembers style (depth + 1) members)

def writeItems (style : Style) (depth : Nat) : List Json → List (List Char)
  | [] => []
  | v :: rest => writeAt style depth v :: writeItems style depth rest

def writeMembers (style : Style) (depth : Nat) : List (String × Json) → List (List Char)
  | [] => []
  | (k, v) :: rest =>
    (writeString k ++ ':' :: ' ' :: writeAt style depth v) :: writeMembers style depth rest

end

mutual

/-- Whether every whole number in a value has few enough digits to be written. -/
def fits : Json → Bool
  | int n => Numeral.fits n
  | arr items => fitItems items
  | obj members => fitMembers members
  | _ => true

def fitItems : List Json → Bool
  | [] => true
  | v :: rest => fits v && fitItems rest

def fitMembers : List (String × Json) → Bool
  | [] => true
  | (_, v) :: rest => fits v && fitMembers rest

end

def write (style : Style) (v : Json) : String := String.ofList (writeAt style 0 v)

end Backmap.Json
