import Backmap.Json.Basic
import Backmap.Decimal.Shortest
import Backmap.Text.Quoted

/-!
# Values in messages

How a value is shown to people: strings inside containers are quoted, a string by itself is not.
-/

namespace Backmap.Json

mutual

/-- A value with its strings quoted. -/
def quoted : Json → String
  | null => "None"
  | bool true => "True"
  | bool false => "False"
  | int n => Numeral.write n
  | float x => x.textWith "nan" "inf"
  | str s => Text.quoted s
  | arr items => "[" ++ ", ".intercalate (quotedItems items) ++ "]"
  | obj members => "\x7b" ++ ", ".intercalate (quotedMembers members) ++ "\x7d"

def quotedItems : List Json → List String
  | [] => []
  | v :: rest => quoted v :: quotedItems rest

def quotedMembers : List (String × Json) → List String
  | [] => []
  | (k, v) :: rest => (Text.quoted k ++ ": " ++ quoted v) :: quotedMembers rest

end

/-- A value as a piece of text. -/
def display : Json → String
  | str s => s
  | v => v.quoted

end Backmap.Json
