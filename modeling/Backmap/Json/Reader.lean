import Backmap.Json.Basic
import Backmap.Numeral

/-!
# Reading JSON

Besides the standard, the words `NaN`, `Infinity` and `-Infinity` are values. A later value of a key replaces
an earlier one. How deep values may lie in one another, and what becomes of half of a surrogate pair, is left to the
dialect.
-/

namespace Backmap.Json

/-- What is wrong with a text that is no JSON. -/
inductive Reason where
  | value
  | extra
  | name
  | colon
  | comma
  | openString
  | control
  | escape
  | unicode
  | byteOrderMark
  deriving DecidableEq, Repr

def Reason.text : Reason → String
  | value => "Expecting value"
  | extra => "Extra data"
  | name => "Expecting property name enclosed in double quotes"
  | colon => "Expecting ':' delimiter"
  | comma => "Expecting ',' delimiter"
  | openString => "Unterminated string starting at"
  | control => "Invalid control character at"
  | escape => "Invalid \\escape"
  | unicode => "Invalid \\uXXXX escape"
  | byteOrderMark => "Unexpected UTF-8 BOM (decode using utf-8-sig)"

/-- Why a text cannot be read: it is no JSON, one of its whole numbers is too long, or a value lies too deep. -/
inductive Error where
  | malformed (reason : Reason) (line column position : Nat)
  | number (error : Numeral.Error)
  | tooDeep (container : Container)
  deriving DecidableEq, Repr

/-- A problem, told by how much of the text was left where it shows. -/
inductive Problem where
  | here (reason : Reason) (left : Nat)
  | number (error : Numeral.Error)
  | tooDeep (container : Container)

/-- What is left open: how many arrays and objects may lie in one another, and the character that stands for half of a
surrogate pair by itself. There is no such character, so a dialect takes one that its texts do not hold. -/
structure Dialect where
  room : Nat
  half : Nat → Char

/-- One that does for most texts. -/
def Dialect.usual : Dialect := ⟨990, fun _ => '\ufffd'⟩

/-- What was read, and the text behind it. -/
abbrev Result (α : Type) := Except Problem (α × List Char)

def isSpace (c : Char) : Bool := c = ' ' || c = '\t' || c = '\n' || c = '\r'

def skipSpace (cs : List Char) : List Char := cs.dropWhile isSpace

def isAsciiDigit (c : Char) : Bool := '0' ≤ c && c ≤ '9'

def hexValue? (c : Char) : Option Nat :=
  if isAsciiDigit c then some (c.toNat - '0'.toNat)
  else if 'a' ≤ c ∧ c ≤ 'f' then some (c.toNat - 'a'.toNat + 10)
  else if 'A' ≤ c ∧ c ≤ 'F' then some (c.toNat - 'A'.toNat + 10)
  else none

/-- The number of four hexadecimal digits at the beginning of a text. -/
def hex4? : List Char → Option Nat
  | a :: b :: c :: d :: _ => do
    let a ← hexValue? a
    let b ← hexValue? b
    let c ← hexValue? c
    let d ← hexValue? d
    some (((a * 16 + b) * 16 + c) * 16 + d)
  | _ => none

def isHighSurrogate (n : Nat) : Bool := 0xd800 ≤ n && n ≤ 0xdbff

def isLowSurrogate (n : Nat) : Bool := 0xdc00 ≤ n && n ≤ 0xdfff

variable (d : Dialect)

/-- The character of a code unit. -/
def unitChar (n : Nat) : Char :=
  if isHighSurrogate n || isLowSurrogate n then d.half n else Char.ofNat n

/-- Reads a code unit behind `\u`, and with it the other half of a pair if that follows; also how many
characters that took. A unit is only read if a character follows it. Problems show at the letter. -/
def codeUnit (cs : List Char) : Except Problem (Char × Nat) :=
  match cs.drop 4 with
  | [] => .error (.here .unicode (cs.length + 1))
  | rest =>
    match hex4? cs with
    | none => .error (.here .unicode (cs.length + 1))
    | some n =>
      match rest with
      | '\\' :: 'u' :: low =>
        if isHighSurrogate n ∧ low.drop 4 ≠ [] then
          match hex4? low with
          | none => .error (.here .unicode (low.length + 1))
          | some k =>
            if isLowSurrogate k then .ok (Char.ofNat (0x10000 + (n - 0xd800) * 0x400 + (k - 0xdc00)), 10)
            else .ok (unitChar d n, 4)
        else .ok (unitChar d n, 4)
      | _ => .ok (unitChar d n, 4)

/-- The escapes of one letter. -/
def escape? : Char → Option Char
  | '"' => some '"'
  | '\\' => some '\\'
  | '/' => some '/'
  | 'b' => some '\x08'
  | 'f' => some '\x0c'
  | 'n' => some '\n'
  | 'r' => some '\r'
  | 't' => some '\t'
  | _ => none

/-- Reads a string behind its opening quote; `start` is the text from the quote on. The first `skip`
characters have been dealt with; `done` holds what was read, last first. -/
def string (start : List Char) (skip : Nat) (done : List Char) : List Char → Result String
  | [] => .error (.here .openString start.length)
  | c :: cs =>
    match skip with
    | skip + 1 => string start skip done cs
    | 0 =>
      if c = '"' then .ok (String.ofList done.reverse, cs)
      else if c = '\\' then
        match cs with
        | [] => .error (.here .openString start.length)
        | 'u' :: unit =>
          match codeUnit d unit with
          | .error e => .error e
          | .ok (e, width) => string start (width + 1) (e :: done) cs
        | e :: _ =>
          match escape? e with
          | some e => string start 1 (e :: done) cs
          | none => .error (.here .escape (cs.length + 1))
      else if c.toNat < 0x20 then .error (.here .control (cs.length + 1))
      else string start 0 (c :: done) cs

/-- The digits of a fraction, with the text behind them, if a point and a digit come next. -/
def fraction? : List Char → Option (List Char × List Char)
  | '.' :: cs =>
    let ds := cs.takeWhile isAsciiDigit
    if ds = [] then none else some (ds, cs.dropWhile isAsciiDigit)
  | _ => none

/-- The power of ten of an exponent, with the text behind it, if one comes next. -/
def exponent? : List Char → Option (Int × List Char)
  | e :: cs =>
    if e = 'e' ∨ e = 'E' then
      let (negative, cs) := Numeral.splitSign cs
      let ds := cs.takeWhile isAsciiDigit
      let n : Int := Numeral.value ds
      if ds = [] then none else some (if negative then -n else n, cs.dropWhile isAsciiDigit)
    else none
  | [] => none

/-- The whole part of a number: a zero by itself, or digits that start with no zero. -/
def whole? : List Char → Option (List Char × List Char)
  | '0' :: cs => some (['0'], cs)
  | cs =>
    let ds := cs.takeWhile isAsciiDigit
    if ds = [] then none else some (ds, cs.dropWhile isAsciiDigit)

/-- Reads a number behind its sign; with a fraction or an exponent it is a floating-point number. `start` is
the text from the sign on. -/
def unsigned (start : List Char) (negative : Bool) (cs : List Char) : Result Json :=
  match whole? cs with
  | none => .error (.here .value start.length)
  | some (ds, rest) =>
    match fraction? rest, exponent? ((fraction? rest).elim rest (·.2)) with
    | none, none =>
      match Numeral.ofDigits ds with
      | .error e => .error (.number e)
      | .ok n => .ok (int (if negative then -n else n), rest)
    | frac, power =>
      let fs := frac.elim [] (·.1)
      let rest := frac.elim rest (·.2)
      let (p, rest) := power.getD (0, rest)
      .ok (float (.ofDecimal negative (Numeral.value (ds ++ fs)) (p - fs.length)), rest)

def number (cs : List Char) : Result Json :=
  match cs with
  | '-' :: rest => unsigned cs true rest
  | _ => unsigned cs false cs

mutual

/-- Reads a value that starts right here; it may be `room` levels deep. -/
def value : Nat → Nat → List Char → Result Json
  | 0, _, cs => .error (.here .value cs.length)
  | fuel + 1, room, cs =>
    match cs with
    | '"' :: rest => (string d cs 0 [] rest).map fun (s, rest) => (str s, rest)
    | '\x7b' :: rest =>
      match room with
      | 0 => .error (.tooDeep .object)
      | room + 1 =>
        match skipSpace rest with
        | '\x7d' :: rest => .ok (obj [], rest)
        | rest => members fuel room [] rest
    | '[' :: rest =>
      match room with
      | 0 => .error (.tooDeep .array)
      | room + 1 =>
        match skipSpace rest with
        | ']' :: rest => .ok (arr [], rest)
        | rest => items fuel room [] rest
    | 'n' :: 'u' :: 'l' :: 'l' :: rest => .ok (null, rest)
    | 't' :: 'r' :: 'u' :: 'e' :: rest => .ok (bool true, rest)
    | 'f' :: 'a' :: 'l' :: 's' :: 'e' :: rest => .ok (bool false, rest)
    | 'N' :: 'a' :: 'N' :: rest => .ok (float .nan, rest)
    | 'I' :: 'n' :: 'f' :: 'i' :: 'n' :: 'i' :: 't' :: 'y' :: rest => .ok (float (.infinite false), rest)
    | '-' :: 'I' :: 'n' :: 'f' :: 'i' :: 'n' :: 'i' :: 't' :: 'y' :: rest =>
      .ok (float (.infinite true), rest)
    | cs => number cs

/-- Reads the items of an array from one on; `done` holds those before it, last first. -/
def items : Nat → Nat → List Json → List Char → Result Json
  | 0, _, _, cs => .error (.here .value cs.length)
  | fuel + 1, room, done, cs =>
    match value fuel room cs with
    | .error e => .error e
    | .ok (v, rest) =>
      match skipSpace rest with
      | ']' :: rest => .ok (arr (v :: done).reverse, rest)
      | ',' :: rest => items fuel room (v :: done) (skipSpace rest)
      | rest => .error (.here .comma rest.length)

/-- Reads the members of an object from one on; `done` holds those before it. -/
def members : Nat → Nat → List (String × Json) → List Char → Result Json
  | 0, _, _, cs => .error (.here .value cs.length)
  | fuel + 1, room, done, cs =>
    match cs with
    | '"' :: rest =>
      match string d cs 0 [] rest with
      | .error e => .error e
      | .ok (key, rest) =>
        match skipSpace rest with
        | ':' :: rest =>
          match value fuel room (skipSpace rest) with
          | .error e => .error e
          | .ok (v, rest) =>
            match skipSpace rest with
            | '\x7d' :: rest => .ok (obj (insert key v done), rest)
            | ',' :: rest => members fuel room (insert key v done) (skipSpace rest)
            | rest => .error (.here .comma rest.length)
        | rest => .error (.here .colon rest.length)
    | cs => .error (.here .name cs.length)

end

/-- Reads a text that is one value between spaces. -/
def document (cs : List Char) : Except Problem Json :=
  if cs.head? = some '\ufeff' then .error (.here .byteOrderMark cs.length)
  else
    match value d (2 * cs.length + 2) d.room (skipSpace cs) with
    | .error e => .error e
    | .ok (v, rest) =>
      match skipSpace rest with
      | [] => .ok v
      | rest => .error (.here .extra rest.length)

/-- Places a problem in its text: lines and columns count from one, positions from zero. -/
def Problem.locate (cs : List Char) : Problem → Error
  | .number e => .number e
  | .tooDeep container => .tooDeep container
  | .here reason left =>
    let before := cs.take (cs.length - left)
    let column := (before.reverse.takeWhile (· != '\n')).length + 1
    .malformed reason (before.count '\n' + 1) column before.length

def read (text : String) : Except Error Json :=
  (document d text.toList).mapError (Problem.locate text.toList)

end Backmap.Json
