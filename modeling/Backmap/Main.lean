import Backmap.Command.Run
import Backmap.Workspace
import Std.Time.Format

/-!
# The command line

The commands on the files, the users, the environment and the clock of a system.
-/

namespace Backmap.Command.Native

/-- The code and the text of an error. -/
def codeAndText : IO.Error → Nat × String
  | .alreadyExists _ code text
  | .otherError code text
  | .resourceBusy code text
  | .resourceVanished code text
  | .unsupportedOperation code text
  | .hardwareFault code text
  | .unsatisfiedConstraints code text
  | .illegalOperation code text
  | .protocolError code text
  | .timeExpired code text
  | .interrupted _ code text
  | .noFileOrDirectory _ code text
  | .invalidArgument _ code text
  | .permissionDenied _ code text
  | .resourceExhausted _ code text
  | .inappropriateType _ code text
  | .noSuchThing _ code text => (code.toNat, text)
  | .unexpectedEof => (5, "Input/output error")
  | .userError text => (5, text)

/-- The same, where the code is not negative as a word, as it is for some errors. -/
def problem (e : IO.Error) : Nat × String :=
  let (code, text) := codeAndText e
  (if code < Nat.pow 2 31 then code else Nat.pow 2 32 - code, text)

/-- Does something that needs no path. -/
def venture {α : Type} (action : IO α) : IO (Except Fault α) := do
  match ← action.toBaseIO with
  | .ok a => return .ok a
  | .error e =>
    let (code, text) := problem e
    return .error (.other s!"[Errno {code}] {text}")

/-- Does something at a path that can be handed to the system. -/
def attempt {α : Type} (path : String) (action : IO α) : IO (Except Fault α) := do
  if path.toList.contains '\x00' then return .error .nulInPath
  match ← action.toBaseIO with
  | .ok a => return .ok a
  | .error e =>
    let (code, text) := problem e
    return .error (.os ⟨.ofCode code text, path⟩)

def read (path : String) : IO (Except Fault Reading) := do
  match ← attempt path (IO.FS.readBinFile path) with
  | .ok content => return .ok (.text (Workspace.decode content))
  | .error (.os e) => return .ok (.refused e)
  | .error e => return .error e

/-- Whether a path names a file; what is not there is none. -/
def isFile (path : String) : IO (Except Fault Bool) := do
  match ← attempt path ((← IO.currentDir) / path).metadata with
  | .ok data => return .ok (data.type == .file)
  | .error (.os ⟨.notFound, _⟩) | .error (.os ⟨.notFolder, _⟩) | .error .nulInPath => return .ok false
  | .error e => return .error e

def folders (path : String) : IO (Except Fault (List String)) := do
  let here ← IO.currentDir
  attempt path do
    let entries ← (here / path).readDir
    let entries ← entries.toList.filterM fun entry => entry.path.isDir
    return entries.map (·.fileName)

def create (path : String) : IO (Except Fault Unit) := do
  let parent := (Path.Tidy.ofString path).parent.text
  match ← attempt parent (IO.FS.createDirAll parent) with
  | .ok () => attempt path (IO.FS.writeBinFile path .empty)
  | .error e => return .error e

def input : IO (Except Fault (Option String)) := do
  match ← venture (do (← IO.getStdin).readBinToEnd) with
  | .error e => return .error e
  | .ok content =>
    if (String.fromUTF8? content).isNone then return .error (.other "standard input is no valid text")
    else return .ok (some (Workspace.decode content))

/-- The lines of a file of the system, cut into fields; none if it cannot be read. -/
def table (path separator : String) : IO (List (List String)) := do
  match ← (IO.FS.readFile path).toBaseIO with
  | .ok text => return (text.splitOn "\n").map (·.splitOn separator)
  | .error _ => return []

/-- The home folder of a user, or of the one that this process belongs to. -/
def home (user : Option String) : IO (Except Fault (Option String)) := do
  let accounts ← table "/etc/passwd" ":"
  match user with
  | some name =>
    if name.toList.contains '\x00' then return .error .nulInPath
    else return .ok ((accounts.find? (·[0]? == some name)).bind (·[5]?))
  | none =>
    let number := ((← table "/proc/self/status" "\t").find? (·[0]? == some "Uid:")).bind (·[1]?)
    return .ok (number.bind fun number => (accounts.find? (·[2]? == some number)).bind (·[5]?))

/-- Follows one more component from a place that has no links on the way to it. -/
def follow (place : String) (part : List Char) : IO String := do
  let here := Path.Tidy.ofString place
  if part = ['.', '.'] then return here.parent.text
  let next := (here.join (String.ofList part)).text
  match ← (IO.FS.realPath next).toBaseIO with
  | .ok real => return real.toString
  | .error _ => return next

def resolve (path : String) : IO (Except Fault String) := do
  if path.toList.contains '\x00' then return .error .nulInPath
  let whole := Path.Tidy.ofString ((← IO.currentDir) / path).toString
  return .ok (← whole.parts.foldlM follow "/")

def host (terminal : Bool) : Host IO where
  machine := { read, isFile, folders, json := .usual }
  input := input
  print text := venture do
    let output ← IO.getStdout
    output.putStr text
    output.flush
  tell text := venture (IO.eprint text)
  create := create
  save path text := attempt path (IO.FS.writeFile path text)
  home := home
  resolve := resolve
  clock := do return (← Std.Time.PlainTime.now).format "HH:mm:ss"
  palette := .ofEnvironment terminal
  dashes := .kept

/-- The variables that have a meaning here. -/
def variableNames : List String :=
  [Settings.distanceVariable, "INCODIAG_MARKER_TOKEN", "INCODIAG_CACHE_DIR", "HOME",
    "FORCE_COLOR", "NO_COLOR", "ANSI_COLORS_DISABLED", "TERM"]

end Backmap.Command.Native

open Backmap.Command in
def main (args : List String) : IO UInt32 := do
  let environment ← Native.variableNames.filterMapM fun name =>
    return (← IO.getEnv name).map (name, ·)
  let cwd ← IO.currentDir
  let terminal ← (← IO.getStdout).isTty
  let code ← run (Native.host terminal) cwd.toString environment args
  return code.toUInt32
