import Backmap.Anchor.Index
import Backmap.Machine

/-!
# The anchor cache

Indices of sources that have been read. A failed reading is kept apart, so that the next request reads again.
-/

namespace Backmap

structure AnchorCache where
  tokens : List String
  /-- The indices by path, in the order in which they were first asked for. -/
  known : List (String × AnchorIndex) := []
  /-- The latest failed reading of each path. -/
  failures : List (String × Reading) := []
  deriving DecidableEq

namespace AnchorCache

def lookup? {α : Type} (key : String) (pairs : List (String × α)) : Option α :=
  (pairs.find? (·.1 == key)).map (·.2)

/-- Sets the value of a key: in place if the key is there, else at the end. -/
def set {α : Type} (key : String) (value : α) (pairs : List (String × α)) : List (String × α) :=
  if pairs.any (·.1 == key) then pairs.map fun (k, v) => if k == key then (k, value) else (k, v)
  else pairs ++ [(key, value)]

def size (c : AnchorCache) : Nat := c.known.length

def contains (c : AnchorCache) (path : String) : Bool := c.known.any (·.1 == path)

def forget (c : AnchorCache) (path : String) : AnchorCache :=
  { c with
    known := c.known.filter (·.1 != path)
    failures := c.failures.filter (·.1 != path) }

def clear (c : AnchorCache) : AnchorCache := { c with known := [], failures := [] }

def channel : String := "incodiag.directives"

/-- What a reading adds to the cache. -/
def learn (c : AnchorCache) (path : String) (r : Reading) : AnchorCache :=
  match r.text? with
  | some text => { c with known := set path (AnchorIndex.build text c.tokens) c.known }
  | none => { c with failures := set path r c.failures }

/-- What is told about a path that has just been indexed. -/
def indexed (index : AnchorIndex) (path : String) : String :=
  s!"Indexed {index.size} directive line(s) in {path}"

/-- The answer to a request for an index. -/
structure Answer where
  index : Option AnchorIndex
  cache : AnchorCache
  /-- Whether the source was read for it. -/
  fresh : Bool
  deriving DecidableEq

/-- The index of a source: the known one, or that of a reading made now. A fault leaves the cache as it is. -/
def request {m : Type → Type} [Monad m] (read : Reader m) (c : AnchorCache) (path : String) :
    m (Except Fault Answer) :=
  match lookup? path c.known with
  | some index => pure (.ok ⟨some index, c, false⟩)
  | none => do
    match ← read path with
    | .error f => pure (.error f)
    | .ok r => pure (.ok ⟨r.text?.map (AnchorIndex.build · c.tokens), c.learn path r, true⟩)

end AnchorCache

end Backmap
