import Backmap.Text.Lines

/-!
# Paths as text

Paths are taken apart at slashes; nothing here looks at files.
-/

namespace Backmap.Path

/-- The pieces of a path between slashes. -/
def pieces (path : List Char) : List (List Char) := Text.splitOn '/' path

def isAbsolute (path : List Char) : Bool := path.head? == some '/'

/-- A path that is read from another one: an absolute path stands for itself. -/
def join (base path : List Char) : List Char :=
  if isAbsolute path then path
  else if base = [] ∨ base.getLast? = some '/' then base ++ path
  else base ++ '/' :: path

/-- How many slashes a path begins with, where two are told apart and more count as one. -/
def rootSlashes : List Char → List Char
  | '/' :: '/' :: '/' :: _ => ['/']
  | '/' :: '/' :: _ => ['/', '/']
  | '/' :: _ => ['/']
  | _ => []

/-- Takes one more piece: `..` takes back the piece before it. The latest piece comes first. -/
def push (taken : List (List Char)) (piece : List Char) : List (List Char) :=
  if piece = [] ∨ piece = ['.'] then taken
  else if piece = ['.', '.'] then taken.tail
  else piece :: taken

/-- The components that a list of pieces leads to from a root. -/
def resolve (pieces : List (List Char)) : List (List Char) := (pieces.foldl push []).reverse

/-- Components with slashes between them. -/
def unite (components : List (List Char)) : List Char := ['/'].intercalate components

/-- The absolute form of a path, free of empty, `.` and `..` components, as seen from the absolute path
`cwd`. -/
def normalize (cwd path : String) : String :=
  let full := join cwd.toList path.toList
  String.ofList (rootSlashes full ++ unite (resolve (pieces full)))

/-- What stands behind the last slash. -/
def baseName (path : String) : String := String.ofList ((pieces path.toList).getLast?.getD [])

/-- The components that name something. -/
def components (path : List Char) : List (List Char) :=
  (pieces path).filter fun c => c ≠ [] ∧ c ≠ ['.']

/-- The longest common beginning of two lists. -/
def commonStart {α : Type} [DecidableEq α] : List α → List α → List α
  | a :: as, b :: bs => if a = b then a :: commonStart as bs else []
  | _, _ => []

/-- Whether `path` lies in `root`: both are absolute or both relative, and what their components have in
common is `root` as it is written. -/
def isWithin (path root : String) : Bool :=
  let p := path.toList
  let r := root.toList
  isAbsolute p == isAbsolute r &&
    (if isAbsolute r then ['/'] else []) ++ unite (commonStart (components p) (components r)) == r

end Backmap.Path
