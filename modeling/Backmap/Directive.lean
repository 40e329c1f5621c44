import Backmap.Text.Lines
import Backmap.Text.Blank

/-!
# Contract directives

A directive is a comment, `// @inco: expression[, -action[(arguments)]]` or `// @if: condition[, -log[(...)]]`,
on a line of its own or behind code.
-/

namespace Backmap

namespace Directive

inductive Kind where
  | inco
  | cond
  deriving DecidableEq, Repr

inductive Action where
  | panic
  | ret
  | cont
  | brk
  | log
  deriving DecidableEq, Repr

def Kind.name : Kind → String
  | inco => "inco"
  | cond => "if"

def Action.name : Action → String
  | panic => "panic"
  | ret => "return"
  | cont => "continue"
  | brk => "break"
  | log => "log"

/-- The actions that a directive of a kind may ask for. -/
def Kind.actions : Kind → List Action
  | inco => [.panic, .ret, .cont, .brk, .log]
  | cond => [.log]

/-- The action of a directive that asks for none. -/
def Kind.default : Kind → Option Action
  | inco => some .panic
  | cond => none

/-- What a comment of a kind has behind its slashes. -/
def Kind.keyword (k : Kind) : List Char := ('@' :: k.name.toList) ++ [':']

end Directive

structure Directive where
  kind : Directive.Kind
  expression : String
  action : Option Directive.Action
  arguments : String := ""
  /-- Whether the comment stands behind code. -/
  inline : Bool := false
  deriving DecidableEq, Repr

namespace Directive

open Text

/-- The text of a directive; the action that would be taken anyway is left out. -/
def text (d : Directive) : String :=
  let head := "@" ++ d.kind.name ++ ": " ++ d.expression
  match d.action with
  | none => head
  | some a =>
    if d.kind = .inco ∧ a = .panic ∧ d.arguments = "" then head
    else head ++ ", -" ++ a.name ++ (if d.arguments = "" then "" else "(" ++ d.arguments ++ ")")

/-- Text between parentheses that nothing but blanks follows; it is not empty and all on one line. -/
def arguments? (cs : List Char) : Option (List Char) :=
  match cs with
  | '(' :: rest =>
    match (trimRight rest).reverse with
    | ')' :: inner => if inner = [] ∨ inner.contains '\n' then none else some inner.reverse
    | _ => none
  | _ => none

/-- An action with its arguments up to the end of the line. -/
def action? (a : Action) (cs : List Char) : Option (Action × List Char) :=
  match after? a.name.toList cs with
  | none => none
  | some rest =>
    match arguments? rest with
    | some arguments => some (a, arguments)
    | none => if allBlank rest then some (a, []) else none

/-- What may follow an expression: an action behind a comma and a dash, or only blanks. -/
def ending? (k : Kind) (cs : List Char) : Option (Option (Action × List Char)) :=
  let asked := match cs with
    | ',' :: rest =>
      match trimLeft rest with
      | '-' :: rest => k.actions.findSome? fun a => action? a rest
      | _ => none
    | _ => none
  match asked with
  | some found => some (some found)
  | none => if allBlank cs then some none else none

/-- Finds the shortest expression that something acceptable follows; `taken` is its beginning, last
character first. -/
def expression? (k : Kind) (taken : List Char) :
    List Char → Option (List Char × Option (Action × List Char))
  | [] => none
  | c :: cs =>
    if c = '\n' then none
    else
      match ending? k cs with
      | some ending => some ((c :: taken).reverse, ending)
      | none => expression? k (c :: taken) cs

/-- The expression behind a keyword and `n` of the blanks that follow it, or fewer but at least one. -/
def behindBlanks? (k : Kind) (cs : List Char) : Nat → Option (List Char × Option (Action × List Char))
  | 0 => none
  | n + 1 => (expression? k [] (cs.drop (n + 1))).or (behindBlanks? k cs n)

/-- Reads a directive whose slashes stand right here. -/
def here? (k : Kind) (cs : List Char) : Option (List Char × Option (Action × List Char)) := do
  let rest ← after? ['/', '/'] cs
  let rest ← after? k.keyword (trimLeft rest)
  behindBlanks? k rest (rest.takeWhile isBlank).length

/-- The first place in a text from which `read` succeeds. -/
def firstOf {α : Type} (read : List Char → Option α) : List Char → Option α
  | [] => read []
  | c :: cs => (read (c :: cs)).or (firstOf read cs)

/-- Reads the directive of one kind on a line. -/
def ofKind? (k : Kind) (line : List Char) : Option Directive :=
  (firstOf (here? k) line).map fun (expression, ending) =>
    { kind := k
      expression := String.ofList (trim expression)
      action := (ending.map (·.1)).or k.default
      arguments := String.ofList ((ending.map (·.2)).getD [])
      inline := (after? ['/', '/'] (trimLeft line)).isNone }

/-- Reads the directive on a line. -/
def parse? (line : String) : Option Directive :=
  (ofKind? .inco line.toList).or (ofKind? .cond line.toList)

/-- The directives of lines from `index` on. -/
def ofLines : Nat → List (List Char) → List (Nat × Directive)
  | _, [] => []
  | index, line :: lines =>
    match parse? (String.ofList line) with
    | some d => (index, d) :: ofLines (index + 1) lines
    | none => ofLines (index + 1) lines

/-- The directives of a text with the indices of their lines. -/
def scan (text : String) : List (Nat × Directive) := ofLines 0 (lines text.toList)

end Directive

end Backmap
