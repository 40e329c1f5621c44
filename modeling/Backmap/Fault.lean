import Backmap.Json.Basic
import Backmap.Numeral
import Backmap.Pattern.Reader
import Backmap.Text.Quoted

/-!
# Faults

The causes that can end an operation before it is done, and how each is told.
-/

namespace Backmap

/-- What the system refuses. -/
inductive OsError.Kind where
  | notFound
  | denied
  | alreadyExists
  | notFolder
  | isFolder
  | nameTooLong
  | other (code : Nat) (text : String)
  deriving DecidableEq, Repr

/-- A refusal of the system, with the path that was given to it. -/
structure OsError where
  kind : OsError.Kind
  path : String
  deriving DecidableEq, Repr

def OsError.Kind.code : Kind → Nat
  | notFound => 2
  | denied => 13
  | alreadyExists => 17
  | notFolder => 20
  | isFolder => 21
  | nameTooLong => 36
  | other code _ => code

def OsError.Kind.text : Kind → String
  | notFound => "No such file or directory"
  | denied => "Permission denied"
  | alreadyExists => "File exists"
  | notFolder => "Not a directory"
  | isFolder => "Is a directory"
  | nameTooLong => "File name too long"
  | other _ text => text

/-- The kind that has a code; `text` tells one that has no name here. -/
def OsError.Kind.ofCode (code : Nat) (text : String) : Kind :=
  match code with
  | 2 => notFound
  | 13 => denied
  | 17 => alreadyExists
  | 20 => notFolder
  | 21 => isFolder
  | 36 => nameTooLong
  | _ => other code text

def OsError.message (e : OsError) : String :=
  let code := e.kind.code
  let text := e.kind.text
  let path := Text.quoted e.path
  s!"[Errno {code}] {text}: {path}"

/-- What the value of an option can be needed for. -/
inductive Fault.Use where
  | path
  | distance
  | token
  | format
  deriving DecidableEq, Repr

inductive Fault where
  | os (error : OsError)
  /-- A path with a NUL cannot be handed to the system. -/
  | nulInPath
  /-- A text that was to be read as a number. -/
  | numeral (error : Numeral.Error)
  /-- A number with too many digits to be written. -/
  | numberTooLong
  /-- An infinite quantity where a whole number is needed. -/
  | infinite
  | pattern (error : Pattern.Error)
  | overlay (path reason : String)
  | settings (text : String)
  | format (name : String)
  | homeUnknown
  /-- A JSON text with an array or object that lies too deep. -/
  | tooDeep (container : Json.Container)
  /-- An option that was given nothing, and what its value was needed for. -/
  | noValue (use : Fault.Use)
  /-- Anything else that the system objects to, in its own words. -/
  | other (text : String)
  deriving DecidableEq, Repr

def Numeral.Error.message : Numeral.Error → String
  | .tooLong digits =>
    s!"Exceeds the limit ({Numeral.limit} digits) for integer string conversion: value has {digits} digits; " ++
      "use sys.set_int_max_str_digits() to increase the limit"
  | .malformed text =>
    -- a long text is cut
    let shown := String.ofList ((Text.quoted text).toList.take 200)
    s!"invalid literal for int() with base 10: {shown}"

def Fault.Use.message : Use → String
  | path => "expected str, bytes or os.PathLike object, not list"
  | distance => "'<' not supported between instances of 'list' and 'int'"
  | token => "'list' object has no attribute 'strip'"
  | format => "Unknown format: []"

def Fault.message : Fault → String
  | os error => error.message
  | nulInPath => "embedded null byte"
  | numeral error => error.message
  | numberTooLong =>
    s!"Exceeds the limit ({Numeral.limit} digits) for integer string conversion; " ++
      "use sys.set_int_max_str_digits() to increase the limit"
  | infinite => "cannot convert float infinity to integer"
  | pattern error => error.message
  | overlay path reason => s!"{path}: {reason}"
  | settings text => text
  | format name =>
    let name := Text.quoted name
    s!"Unknown format: {name}"
  | homeUnknown => "Could not determine home directory."
  | tooDeep container =>
    s!"maximum recursion depth exceeded while decoding a JSON {container.name} from a unicode string"
  | noValue use => use.message
  | other text => text

end Backmap
