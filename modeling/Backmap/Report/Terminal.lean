import Backmap.Diagnostic
import Backmap.Machine
import Backmap.Report.Palette
import Backmap.Text.Lines

/-!
# The terminal report

A diagnostic is shown with the source line that it points at, if there is one.
-/

namespace Backmap.Terminal

/-- The lines of the sources read so far; none for one that could not be read. -/
abbrev Sources := List (String × List (List Char))

/-- The lines that a reading gives. -/
def linesOf (r : Reading) : List (List Char) :=
  match r.text? with
  | some text => Text.lines text.toList
  | none => []

/-- The lines of a source, which is read once. -/
def sourceLines {m : Type → Type} [Monad m] (read : Reader m) (path : String) (known : Sources) :
    m (Except Fault (List (List Char) × Sources)) :=
  match (known.find? (·.1 == path)).map (·.2) with
  | some lines => pure (.ok (lines, known))
  | none => do
    match ← read path with
    | .error f => pure (.error f)
    | .ok r => pure (.ok (linesOf r, known ++ [(path, linesOf r)]))

/-- The line with an index counted from zero, without the blanks at its end. -/
def lineAt? (lines : List (List Char)) (index : Int) : Option String :=
  match index with
  | .ofNat n => (lines[n]?).map fun l => String.ofList (Text.trimRight l)
  | .negSucc _ => none

/-- The text of a diagnostic, with its source line. -/
def text (p : Palette) (d : Diagnostic) (source : Option String) : String :=
  let number := Numeral.write (d.line + 1)
  let head := p.bold d.severity.label (some d.severity.colour) ++ ": " ++ p.bold d.message none
  let place := "  " ++ p.bold "-->" (some "blue") ++ " " ++ d.file ++ ":" ++ number
  let shown := match source with
    | some line => " " ++ p.bold number (some "blue") ++ " " ++ p.bold "|" (some "blue") ++ " " ++ line ++ "\n"
    | none => ""
  head ++ "\n" ++ place ++ "\n" ++ shown ++ "\n"

/-- Writes diagnostics behind what is `written`, up to the first fault. -/
def write {m : Type → Type} [Monad m] (p : Palette) (read : Reader m) :
    List Diagnostic → Sources → String → m (String × Option Fault)
  | [], _, written => pure (written, none)
  | d :: rest, known, written =>
    if !Numeral.fits (d.line + 1) then pure (written, some .numberTooLong)
    else do
      match ← sourceLines read d.file known with
      | .error f => pure (written, some f)
      | .ok (lines, known) => write p read rest known (written ++ text p d (lineAt? lines d.line))

end Backmap.Terminal
