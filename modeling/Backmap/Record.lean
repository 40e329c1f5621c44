import Backmap.Fault
import Backmap.Log
import Backmap.Text.Lines

/-!
# Records of compiler output

A compiler reports one problem a line, as `path:line[:column]: message`, between lines of chatter.
-/

namespace Backmap

structure Record where
  path : String
  /-- Counted from one, as is the column. -/
  line : Nat
  column : Option Nat := none
  message : String := ""
  deriving DecidableEq, Repr

namespace Record

open Text

/-- The written form of a record. -/
def text (r : Record) : String :=
  let column := match r.column with
    | some c => ":" ++ Numeral.write c
    | none => ""
  r.path ++ ":" ++ Numeral.write r.line ++ column ++ ": " ++ r.message

/-- The parts of a line that has the form of a record, as they are written. -/
structure Parts where
  path : List Char
  line : List Char
  column : Option (List Char)
  message : List Char
  deriving DecidableEq, Repr

/-- What may stand at the end of a line behind the message. -/
def isTrailing (c : Char) : Bool := c = ' ' || c = '\t' || c = '\r'

/-- What may stand between the position and the message. -/
def isGap (c : Char) : Bool := c = ' ' || c = '\t'

/-- Reads the message behind the colon that ends the position. -/
def message? (cs : List Char) : Option (List Char) :=
  match cs with
  | c :: _ =>
    if isGap c then
      match cs.dropWhile isGap with
      | [] => none
      | d :: rest => if isBlank d then none else some (dropTailWhile isTrailing (d :: rest))
    else none
  | [] => none

/-- Reads `:line[:column]: message` behind a path. -/
def position? (path cs : List Char) : Option Parts :=
  match cs with
  | ':' :: cs =>
    let line := cs.takeWhile isDigit
    if line = [] then none
    else
      match cs.dropWhile isDigit with
      | ':' :: rest =>
        let column := rest.takeWhile isDigit
        if column = [] then (message? rest).map fun m => ⟨path, line, none, m⟩
        else
          match rest.dropWhile isDigit with
          | ':' :: rest => (message? rest).map fun m => ⟨path, line, some column, m⟩
          | _ => none
      | _ => none
  | _ => none

/-- Reads a record whose path begins with `start`, up to the next colon. -/
def from? (start cs : List Char) : Option Parts :=
  let path := cs.takeWhile (· != ':')
  if path = [] then none else position? (start ++ path) (cs.dropWhile (· != ':'))

/-- The letter of a drive with its colon, and the rest of the line. -/
def drive? : List Char → Option (List Char × List Char)
  | c :: ':' :: cs => if c.isAlpha then some ([c, ':'], cs) else none
  | _ => none

/-- Takes a line apart. A drive letter is read as one if the line is a record that way. -/
def parts? (line : List Char) : Option Parts :=
  ((drive? line).bind fun (start, cs) => from? start cs).or (from? [] line)

/-- What a line of compiler output is. -/
inductive Line where
  /-- No record. -/
  | other
  /-- A record that is chatter, or that names no file. -/
  | noise
  | record (r : Record)
  | fault (f : Fault)
  deriving DecidableEq, Repr

/-- Whether something is found in a line. -/
abbrev Search := List Char → Bool

/-- A pattern of chatter: how it is written, and what it comes to. A text that is no pattern is a fault. -/
structure Noise where
  text : String
  search : Except Fault Search

/-- A pattern in the grammar of the library. -/
def Noise.ofText (text : String) : Noise := ⟨text, ((Pattern.read text).mapError .pattern).map Pattern.search⟩

def isNoise (searches : List Search) (line : List Char) : Bool := searches.any (· line)

/-- The numbers of a record are read once it is known not to be noise. -/
def Parts.record (p : Parts) : Except Fault Record := do
  let line ← (Numeral.ofDigits p.line).mapError .numeral
  let column ← match p.column with
    | none => .ok none
    | some c => ((Numeral.ofDigits c).map some).mapError .numeral
  .ok ⟨String.ofList (trim p.path), line, column, String.ofList p.message⟩

def Line.ofText (searches : List Search) (line : List Char) : Line :=
  match parts? line with
  | none => .other
  | some p =>
    if trim p.path = [] || isNoise searches line then .noise
    else
      match p.record with
      | .ok r => .record r
      | .error f => .fault f

/-- What noise patterns come to; the first that is none is a fault. -/
def readPatterns (noise : List Noise) : Except Fault (List Search) := noise.mapM (·.search)

def channel : String := "incodiag.compiler_output"

/-- The records of lines, up to the first fault, in the order of the lines. -/
def ofLines {m : Type → Type} [Monad m] (searches : List Search) :
    List (List Char) → List Record → Task m (List Record)
  | [], done => pure done.reverse
  | line :: lines, done =>
    match Line.ofText searches line with
    | .other => ofLines searches lines done
    | .noise => do
      Task.log .debug channel ("Skipping compiler noise: " ++ String.ofList line)
      ofLines searches lines done
    | .record r => ofLines searches lines (r :: done)
    | .fault f => throw f

/-- The records of compiler output. -/
def parse {m : Type → Type} [Monad m] (output : String) (noise : List Noise) : Task m (List Record) :=
  match readPatterns noise with
  | .error f => throw f
  | .ok searches => ofLines searches (splitOn '\n' output.toList) []

end Record

end Backmap
