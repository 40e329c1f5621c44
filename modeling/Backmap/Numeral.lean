import Backmap.Text.Blank
import Backmap.Text.Digit

/-!
# Whole numbers as text

Numerals may use the digits of any script. They are limited in length both when they are read and when they
are written.
-/

namespace Backmap.Numeral

open Text

/-- The most digits a numeral may have. -/
def limit : Nat := 4300

/-- The number that digits spell. -/
def value (cs : List Char) : Nat :=
  cs.foldl (fun n c => 10 * n + (digitValue? c).getD 0) 0

/-- The decimal digits of a natural number. -/
def digits (n : Nat) : List Char := Nat.toDigits 10 n

def write (n : Int) : String :=
  match n with
  | .ofNat n => String.ofList (digits n)
  | .negSucc n => String.ofList ('-' :: digits (n + 1))

/-- Whether a number has few enough digits to be written. -/
def fits (n : Int) : Bool := (digits n.natAbs).length ≤ limit

/-- Why a text is no numeral. -/
inductive Error where
  | tooLong (digits : Nat)
  | malformed (text : String)
  deriving DecidableEq, Repr

/-- Reads a run of digits. -/
def ofDigits (cs : List Char) : Except Error Nat :=
  if cs.length ≤ limit then .ok (value cs) else .error (.tooLong cs.length)

theorem ofDigits_of_le {cs : List Char} (h : cs.length ≤ limit) : ofDigits cs = .ok (value cs) := if_pos h

theorem ofDigits_of_not_le {cs : List Char} (h : ¬ cs.length ≤ limit) :
    ofDigits cs = .error (.tooLong cs.length) := if_neg h

/-- The blanks that may stand around a numeral: all but the information separators. -/
def isMargin (c : Char) : Bool := isBlank c && !(0x1c ≤ c.toNat && c.toNat ≤ 0x1f)

/-- Reads digits with single underscores between them, and returns the digits and the rest;
nothing if an underscore has no digit on one of its sides. -/
def digitRun : Bool → List Char → Option (List Char × List Char)
  | afterDigit, c :: cs =>
    if isDigit c then (digitRun true cs).map fun (ds, rest) => (c :: ds, rest)
    else if c = '_' then if afterDigit then digitRun false cs else none
    else if afterDigit then some ([], c :: cs) else none
  | afterDigit, [] => if afterDigit then some ([], []) else none

/-- Takes a sign off; `true` for minus. -/
def splitSign : List Char → Bool × List Char
  | '-' :: cs => (true, cs)
  | '+' :: cs => (false, cs)
  | cs => (false, cs)

/-- Reads an integer: blanks, a sign, digits, blanks. A numeral that is too long is told before what
follows it is looked at. -/
def read (s : String) : Except Error Int :=
  let (negative, cs) := splitSign (s.toList.dropWhile isMargin)
  match digitRun false cs with
  | none => .error (.malformed s)
  | some (ds, rest) =>
    if limit < ds.length then .error (.tooLong ds.length)
    else if rest.all isMargin then .ok (if negative then -value ds else value ds)
    else .error (.malformed s)

end Backmap.Numeral
