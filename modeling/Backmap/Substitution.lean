import Backmap.Json.Basic
import Backmap.Path.Basic

/-!
# Substitution tables

Which generated file, the shadow, the compiler sees in place of a source.
-/

namespace Backmap

/-- Pairs of a source and its shadow, all normalized; every source occurs once. -/
structure Substitution where
  pairs : List (String × String) := []
  deriving DecidableEq, Repr

namespace Substitution

/-- Builds a table from entries as they are written, relative to `cwd`. Of entries for one source the last
counts, in the place of the first. -/
def ofEntries (cwd : String) (entries : List (String × String)) : Substitution :=
  ⟨entries.foldl (fun pairs (source, shadow) =>
    Json.insert (Path.normalize cwd source) (Path.normalize cwd shadow) pairs) []⟩

def size (t : Substitution) : Nat := t.pairs.length

def sources (t : Substitution) : List String := t.pairs.map (·.1)

/-- The shadow of a source. -/
def shadow? (t : Substitution) (cwd source : String) : Option String :=
  (t.pairs.find? (·.1 == Path.normalize cwd source)).map (·.2)

def contains (t : Substitution) (cwd source : String) : Bool := (t.shadow? cwd source).isSome

/-- A shadow that a second source gives as its own. -/
structure Clash where
  shadow : String
  kept : String
  dropped : String
  deriving DecidableEq, Repr

def Clash.message (c : Clash) : String :=
  s!"overlay maps {c.shadow} from both {c.kept} and {c.dropped}; keeping the first"

/-- The source of a shadow in a reversed table. -/
def sourceOf? (reversed : List (String × String)) (shadow : String) : Option String :=
  (reversed.find? (·.1 == shadow)).map (·.2)

/-- Shadows with their sources, behind those already found. The first source of a shadow is kept; each further
one is a clash. -/
def reverseFrom (found : List (String × String)) :
    List (String × String) → List (String × String) × List Clash
  | [] => (found, [])
  | (source, shadow) :: rest =>
    match sourceOf? found shadow with
    | some kept =>
      let (reversed, clashes) := reverseFrom found rest
      (reversed, ⟨shadow, kept, source⟩ :: clashes)
    | none => reverseFrom (found ++ [(shadow, source)]) rest

/-- The table read backwards, and what clashed on the way. -/
def reverse (t : Substitution) : List (String × String) × List Clash := reverseFrom [] t.pairs

end Substitution

end Backmap
