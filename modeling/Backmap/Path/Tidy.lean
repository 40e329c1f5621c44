import Backmap.Path.Basic

/-!
# Tidy paths

A path without empty and `.` components and without slashes at its end. Unlike in a normal form, `..` stays,
and the path need not be absolute.
-/

namespace Backmap.Path

structure Tidy where
  /-- Nothing, one slash, or two. -/
  root : List Char
  parts : List (List Char)
  deriving DecidableEq, Repr

namespace Tidy

def ofString (path : String) : Tidy := ⟨rootSlashes path.toList, components path.toList⟩

def text (t : Tidy) : String :=
  if t.root = [] ∧ t.parts = [] then "." else String.ofList (t.root ++ unite t.parts)

/-- A path below another one: an absolute path stands for itself. -/
def join (t : Tidy) (path : String) : Tidy :=
  let u := ofString path
  if u.root = [] then ⟨t.root, t.parts ++ u.parts⟩ else u

/-- The components with the root, if there is one, in first place. -/
def steps (t : Tidy) : List String :=
  ((if t.root = [] then [] else [t.root]) ++ t.parts).map String.ofList

def parent (t : Tidy) : Tidy := ⟨t.root, t.parts.dropLast⟩

end Tidy

end Backmap.Path
