import Backmap.Fault
import Backmap.Json.Reader

/-!
# The machine

What the library asks of the machine that it runs on: access to files, over any monad, and how JSON is read. Files may
be a tree given as a value, the real ones, or whatever answers as a test wants.
-/

namespace Backmap

/-- The outcome of reading a text file. -/
inductive Reading where
  | text (content : String)
  | refused (error : OsError)
  /-- No text, and no reason given. -/
  | silent
  deriving DecidableEq, Repr

/-- The text of a reading that succeeded. -/
def Reading.text? : Reading → Option String
  | text content => some content
  | _ => none

/-- How a failed reading is told. -/
def Reading.reason : Reading → String
  | refused error => error.message
  | _ => "None"

/-- Reads text files; a path that cannot be handed to the system is a fault. -/
abbrev Reader (m : Type → Type) := String → m (Except Fault Reading)

structure Machine (m : Type → Type) where
  read : Reader m
  /-- Whether a path is that of a regular file. Where the system refuses to tell, that may be a fault. -/
  isFile : String → m (Except Fault Bool)
  /-- The names of the folders in a folder, in no particular order. -/
  folders : String → m (Except Fault (List String))
  json : Json.Dialect

end Backmap
