import Backmap.Pattern.Basic
import Backmap.Numeral
import Backmap.Text.Quoted

/-!
# Reading patterns

The written form of a pattern, and what is told about a text that is none.

The grammar has literals, `.`, `^`, `$`, bracket expressions, groups with or without a name, `|`, the repetitions
`* + ?` and `{m,n}`, behind which a `?` asks for few and a `+` for all, and the escapes `\s \S \d \D \A \Z`, those
of control characters, and those of characters that are neither letters nor digits.
-/

namespace Backmap.Pattern

/-- Why a text is no pattern, and where. -/
structure Error where
  reason : String
  position : Nat
  source : String
  deriving DecidableEq, Repr

/-- The place is a count of characters; in a text of several lines, also a line and a column. -/
def Error.message (e : Error) : String :=
  let before := e.source.toList.take e.position
  let place := s!"{e.reason} at position {e.position}"
  if e.source.toList.contains '\n' then
    let line := before.count '\n' + 1
    let column := (before.reverse.takeWhile (· != '\n')).length + 1
    s!"{place} (line {line}, column {column})"
  else place

/-- A piece of a written pattern: a character, one behind a backslash, or a backslash at the very end. -/
inductive Token where
  | plain (c : Char)
  | escaped (c : Char)
  | dangling
  deriving DecidableEq, Repr

def Token.width : Token → Nat
  | plain _ => 1
  | escaped _ => 2
  | dangling => 1

def Token.text : Token → String
  | plain c => String.singleton c
  | escaped c => String.ofList ['\\', c]
  | dangling => "\\"

def tokens : List Char → List Token
  | [] => []
  | ['\\'] => [.dangling]
  | '\\' :: c :: cs => .escaped c :: tokens cs
  | c :: cs => .plain c :: tokens cs

/-- A problem, told by what was left of the pattern where it shows. -/
structure Problem where
  reason : String
  left : Nat

def leftOver (ts : List Token) : Nat := ts.foldr (fun t left => t.width + left) 0

/-- Goes on to what is behind a token; a dangling backslash shows as soon as it comes next. -/
def goOn : List Token → Except Problem Unit
  | .dangling :: _ => .error ⟨"bad escape (end of pattern)", 1⟩
  | _ => .ok ()

/-- What an escape stands for. -/
inductive Escape where
  | char (c : Char)
  | members (m : Member)

/-- The escapes that may stand in a bracket expression. -/
def escape? (c : Char) : Option Escape :=
  match c with
  | 's' => some (.members (.blank true))
  | 'S' => some (.members (.blank false))
  | 'd' => some (.members (.digit true))
  | 'D' => some (.members (.digit false))
  | 'n' => some (.char '\n')
  | 't' => some (.char '\t')
  | 'r' => some (.char '\r')
  | 'f' => some (.char '\x0c')
  | 'v' => some (.char '\x0b')
  | 'a' => some (.char '\x07')
  | c => if c.isAlphanum then none else some (.char c)

def Escape.member : Escape → Member
  | char c => .range c c
  | members m => m

/-- Reads one end of a range, or a member by itself. -/
def bracketItem (t : Token) (left : Nat) : Except Problem Escape :=
  match t with
  | .plain c => .ok (.char c)
  | .escaped c =>
    match escape? c with
    | some e => .ok e
    | none => .error ⟨s!"bad escape {t.text}", left⟩
  | .dangling => .error ⟨"bad escape (end of pattern)", 1⟩

/-- Reads the members of a bracket expression and its closing bracket. A bracket in first place stands for
itself; `start` is what was left at the opening bracket. -/
def bracket (start : Nat) : Nat → List Member → List Token → Except Problem (List Member × List Token)
  | 0, _, _ => .error ⟨"unterminated character set", start⟩
  | _, _, [] => .error ⟨"unterminated character set", start⟩
  | fuel + 1, found, t :: rest => do
    goOn rest
    if t = .plain ']' ∧ found ≠ [] then return (found, rest)
    let item ← bracketItem t (leftOver (t :: rest))
    match rest with
    | .plain '-' :: rest =>
      goOn rest
      match rest with
      | [] => throw ⟨"unterminated character set", start⟩
      | u :: more =>
        goOn more
        if u = .plain ']' then return (found ++ [item.member, .range '-' '-'], more)
        let other ← bracketItem u (leftOver (u :: more))
        let bad : Problem :=
          ⟨s!"bad character range {t.text}-{u.text}", leftOver (t :: .plain '-' :: u :: more)⟩
        match item, other with
        | .char low, .char high =>
          if high < low then throw bad
          bracket start fuel (found ++ [.range low high]) more
        | _, _ => throw bad
    | rest => bracket start fuel (found ++ [item.member]) rest

/-- What a repetition may follow. -/
inductive Kind where
  | anchor
  | repetition
  | other
  deriving DecidableEq

/-- The bounds of a counted repetition behind its opening brace; nothing if the brace stands for itself. -/
def bounds? (ts : List Token) : Option ((Nat × Option Nat) × List Token) :=
  let number (ts : List Token) : List Char × List Token :=
    let ds := ts.takeWhile fun t => match t with
      | .plain c => c.isDigit
      | _ => false
    (ds.filterMap fun t => match t with
      | .plain c => some c
      | _ => none, ts.drop ds.length)
  let (low, rest) := number ts
  match rest with
  | .plain ',' :: rest =>
    let (high, rest) := number rest
    match rest with
    | .plain '\x7d' :: rest =>
      some ((Numeral.value low, if high = [] then none else some (Numeral.value high)), rest)
    | _ => none
  | .plain '\x7d' :: rest =>
    if low = [] then none else some ((Numeral.value low, some (Numeral.value low)), rest)
  | _ => none

/-- The groups that have been opened, in order, with their names. -/
abbrev Groups := List (Option String)

/-- Opens a group with a name, which must be a new one; `left` is what was left at the name. -/
def Groups.add (groups : Groups) (name : String) (left : Nat) : Except Problem Groups :=
  match groups.idxOf? (some name) with
  | none => .ok (groups ++ [some name])
  | some i =>
    let shown := Text.quoted name
    .error ⟨s!"redefinition of group name {shown} as group {groups.length + 1}; was group {i + 1}", left⟩

/-- Reads the name of a group up to its closing bracket, and opens the group. -/
def groupName (groups : Groups) : List Char → List Token → Except Problem (Groups × List Token)
  | [], [] => .error ⟨"missing group name", 0⟩
  | found, [] => .error ⟨"missing >, unterminated name", found.length⟩
  | found, t :: rest => do
    goOn rest
    if t ≠ .plain '>' then groupName groups (found ++ t.text.toList) rest
    else if found = [] then throw ⟨"missing group name", leftOver (t :: rest)⟩
    else
      let name := String.ofList found
      let left := leftOver (t :: rest) + found.length
      if found.all (fun c => c.isAlphanum || c = '_' || 0x80 ≤ c.toNat) &&
          found.head?.all (!·.isDigit) then
        pure (← groups.add name left, rest)
      else
        let shown := Text.quoted name
        throw ⟨s!"bad character in group name {shown}", left⟩

/-- Reads what may stand between an opening parenthesis and the contents of its group. -/
def groupHead (groups : Groups) : List Token → Except Problem (Groups × List Token)
  | .plain '?' :: rest => do
    goOn rest
    match rest with
    | [] => throw ⟨"unexpected end of pattern", 0⟩
    | .plain ':' :: rest =>
      goOn rest
      pure (groups, rest)
    | .plain 'P' :: rest =>
      goOn rest
      match rest with
      | [] => throw ⟨"unexpected end of pattern", 0⟩
      | .plain '<' :: rest =>
        goOn rest
        groupName groups [] rest
      | t :: rest =>
        goOn rest
        throw ⟨s!"unknown extension ?P{t.text}", leftOver (t :: rest) + 2⟩
    | t :: rest =>
      goOn rest
      throw ⟨s!"unknown extension ?{t.text}", leftOver (t :: rest) + 1⟩
  | rest => .ok (groups ++ [none], rest)

/-- The items of a branch, last first. -/
abbrev Items := List (Pattern × Kind)

def Items.pattern (items : Items) : Pattern :=
  items.foldl (fun q (p, _) => .seq p q) .empty

/-- Reads the sign behind a repetition. -/
def wish : List Token → Except Problem (Wish × List Token)
  | .plain '?' :: rest => do
    goOn rest
    pure (.fewest, rest)
  | .plain '+' :: rest => do
    goOn rest
    pure (.all, rest)
  | rest => .ok (.most, rest)

/-- Puts a repetition, with the sign behind it, on the last item; `left` is what was left where it stands. -/
def Items.repeatLast (items : Items) (low : Nat) (high : Option Nat) (left : Nat) (rest : List Token) :
    Except Problem (Items × List Token) :=
  match items with
  | [] => .error ⟨"nothing to repeat", left⟩
  | (_, .anchor) :: _ => .error ⟨"nothing to repeat", left⟩
  | (_, .repetition) :: _ => .error ⟨"multiple repeat", left⟩
  | (p, .other) :: items => do
    let (w, rest) ← wish rest
    pure ((p.repeated low high w, .repetition) :: items, rest)

/-- Whether a bracket expression names what it wants, and not what it does not want. -/
def bracketSign : List Token → Except Problem (Bool × List Token)
  | .plain '^' :: rest => do
    goOn rest
    pure (false, rest)
  | rest => .ok (true, rest)

mutual

/-- Reads alternatives up to a closing parenthesis or the end. -/
def branches : Nat → Groups → List Token → Except Problem (Pattern × Groups × List Token)
  | 0, groups, ts => .ok (.empty, groups, ts)
  | fuel + 1, groups, ts => do
    let (items, groups, rest) ← branch fuel groups [] ts
    match rest with
    | .plain '|' :: rest =>
      goOn rest
      let (q, groups, rest) ← branches fuel groups rest
      pure (.alt items.pattern q, groups, rest)
    | rest => pure (items.pattern, groups, rest)

/-- Reads one alternative behind the items already found. -/
def branch : Nat → Groups → Items → List Token → Except Problem (Items × Groups × List Token)
  | 0, groups, items, ts => .ok (items, groups, ts)
  | _, groups, items, [] => .ok (items, groups, [])
  | fuel + 1, groups, items, t :: rest =>
    if t = .plain '|' ∨ t = .plain ')' then .ok (items, groups, t :: rest)
    else do
      goOn rest
      let left := leftOver (t :: rest)
      match t with
      | .dangling => throw ⟨"bad escape (end of pattern)", 1⟩
      | .escaped 'A' => branch fuel groups ((.atStart, .anchor) :: items) rest
      | .escaped 'Z' => branch fuel groups ((.atEnd false, .anchor) :: items) rest
      | .escaped c =>
        match escape? c with
        | some e => branch fuel groups ((.one true [e.member], .other) :: items) rest
        | none => throw ⟨s!"bad escape {t.text}", left⟩
      | .plain '.' => branch fuel groups ((anyChar, .other) :: items) rest
      | .plain '^' => branch fuel groups ((.atStart, .anchor) :: items) rest
      | .plain '$' => branch fuel groups ((.atEnd true, .anchor) :: items) rest
      | .plain '*' =>
        let (items, rest) ← items.repeatLast 0 none left rest
        branch fuel groups items rest
      | .plain '+' =>
        let (items, rest) ← items.repeatLast 1 none left rest
        branch fuel groups items rest
      | .plain '?' =>
        let (items, rest) ← items.repeatLast 0 (some 1) left rest
        branch fuel groups items rest
      | .plain '\x7b' =>
        match bounds? rest with
        | none => branch fuel groups ((literal '\x7b', .other) :: items) rest
        | some ((low, high), more) =>
          goOn more
          if high.getD low < low then throw ⟨"min repeat greater than max repeat", leftOver rest⟩
          let (items, rest) ← items.repeatLast low high left more
          branch fuel groups items rest
      | .plain '[' =>
        let (positive, rest) ← bracketSign rest
        let (members, rest) ← bracket left fuel [] rest
        branch fuel groups ((.one positive members, .other) :: items) rest
      | .plain '(' =>
        let (groups, inner) ← groupHead groups rest
        let (p, groups, rest) ← branches fuel groups inner
        match rest with
        | .plain ')' :: rest =>
          goOn rest
          branch fuel groups ((p, .other) :: items) rest
        | _ => throw ⟨"missing ), unterminated subpattern", left⟩
      | .plain c => branch fuel groups ((literal c, .other) :: items) rest

end

def readTokens (ts : List Token) : Except Problem Pattern := do
  goOn ts
  let (p, _, rest) ← branches (2 * ts.length + 2) [] ts
  match rest with
  | [] => pure p
  | rest => throw ⟨"unbalanced parenthesis", leftOver rest⟩

/-- Reads a whole pattern. -/
def read (source : String) : Except Error Pattern :=
  let cs := source.toList
  (readTokens (tokens cs)).mapError fun e => ⟨e.reason, cs.length - e.left, source⟩

end Backmap.Pattern
