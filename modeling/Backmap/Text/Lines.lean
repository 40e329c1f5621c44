/-!
# Lines

Two notions of a line live side by side: pieces between line feeds, and pieces ended by any of
Unicode's line boundaries.
-/

namespace Backmap.Text

/-- The pieces of a text between the characters `sep`; there is always at least one. -/
def splitOn (sep : Char) (cs : List Char) : List (List Char) :=
  cs.foldr (fun c pieces => if c = sep then [] :: pieces else pieces.modifyHead (c :: ·)) [[]]

/-- One more character in front of a text: a carriage return goes where a line feed follows it. The second
part is the character that came in last. -/
def returnStep (c : Char) (state : List Char × Option Char) : List Char × Option Char :=
  (if c = '\r' ∧ state.2 = some '\n' then state.1 else c :: state.1, some c)

/-- A carriage return right before a line feed goes. -/
def joinReturns (cs : List Char) : List Char := (cs.foldr returnStep ([], none)).1

theorem foldr_returnStep_snd (cs : List Char) : (cs.foldr returnStep ([], none)).2 = cs.head? := by
  cases cs <;> rfl

@[simp] theorem joinReturns_nil : joinReturns [] = [] := rfl

theorem joinReturns_cons (c : Char) (cs : List Char) :
    joinReturns (c :: cs) =
      if c = '\r' ∧ cs.head? = some '\n' then joinReturns cs else c :: joinReturns cs := by
  simp [joinReturns, returnStep, foldr_returnStep_snd]

/-- Every line ending as one line feed: `\r\n`, and a `\r` by itself. -/
def unifyNewlines (cs : List Char) : List Char :=
  (joinReturns cs).map fun c => if c = '\r' then '\n' else c

/-- A character that ends a line. -/
def isBreak (c : Char) : Bool :=
  let n := c.toNat
  (0x0a ≤ n && n ≤ 0x0d) || (0x1c ≤ n && n ≤ 0x1e) || n == 0x85 || n == 0x2028 || n == 0x2029

/-- Puts a character in front of the first line, which it starts if there is none. -/
def consFirst (c : Char) : List (List Char) → List (List Char)
  | [] => [[c]]
  | l :: ls => (c :: l) :: ls

/-- The lines of a text. A boundary ends a line, so none follows a boundary at the very end;
`\r\n` is one boundary. -/
def lines (cs : List Char) : List (List Char) :=
  (joinReturns cs).foldr (fun c ls => if isBreak c then [] :: ls else consFirst c ls) []

end Backmap.Text
