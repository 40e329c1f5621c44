import Backmap.Command.Run
import Backmap.Workspace

/-!
# A console as a value

Commands can be run on a file tree that is a value, with what they write kept beside it.
-/

namespace Backmap.Command

structure Console where
  workspace : Workspace
  /-- What is left of standard input; nothing if reading it is interrupted. -/
  input : Option String
  output : String := ""
  told : String := ""

namespace Console

/-- Makes a folder and those on the way to it; a folder that is there already is fine. `fuel` bounds the length of the
way. -/
def makeFolders (w : Workspace) (path : Path.Tidy) : Nat → Except Fault Unit × Workspace
  | 0 => (.ok (), w)
  | fuel + 1 =>
    let settle (w : Workspace) (e : Fault) : Except Fault Unit × Workspace :=
      match w.isFolder path.text with
      | .ok true => (.ok (), w)
      | _ => (.error e, w)
    match w.makeFolder path.text with
    | .ok w => (.ok (), w)
    | .error (.os ⟨.notFound, p⟩) =>
      if path.parts = [] then (.error (.os ⟨.notFound, p⟩), w)
      else
        match makeFolders w path.parent fuel with
        | (.error e, w) => (.error e, w)
        | (.ok (), w) =>
          match w.makeFolder path.text with
          | .ok w => (.ok (), w)
          | .error (.os ⟨.notFound, p⟩) => (.error (.os ⟨.notFound, p⟩), w)
          | .error e => settle w e
    | .error e => settle w e

/-- Makes an empty file, and the folders on the way to it. -/
def createFile (w : Workspace) (path : String) : Except Fault Unit × Workspace :=
  let tidy := Path.Tidy.ofString path
  match makeFolders w tidy.parent (tidy.parts.length + 1) with
  | (.error e, w) => (.error e, w)
  | (.ok (), w) =>
    match w.write path .empty with
    | .ok w => (.ok (), w)
    | .error e => (.error e, w)

/-- The one path of a place; there are no links to follow. -/
def resolve (w : Workspace) (path : String) : Except Fault String :=
  if path.toList.contains '\x00' then .error .nulInPath
  else
    let start := if Path.isAbsolute path.toList then [] else w.cwd.map String.toList
    .ok (String.ofList ('/' :: Path.unite (Path.resolve (start ++ Path.pieces path.toList))))

/-- A console as the host of a command. It is no terminal, knows no users, and the time of day stands still. -/
def host : Host (StateM Console) where
  machine := Machine.ofState .usual workspace
  input := fun c => (.ok c.input, { c with input := c.input.map fun _ => "" })
  print text := fun c => (.ok (), { c with output := c.output ++ text })
  tell text := fun c => (.ok (), { c with told := c.told ++ text })
  create path := fun c =>
    let (result, w) := createFile c.workspace path
    (result, { c with workspace := w })
  save path text := fun c =>
    match c.workspace.write path text.toUTF8 with
    | .ok w => (.ok (), { c with workspace := w })
    | .error e => (.error e, c)
  home user := pure (if user.any (·.toList.contains '\x00') then .error .nulInPath else .ok none)
  resolve path := fun c => (resolve c.workspace path, c)
  clock := pure "00:00:00"
  palette := .ofEnvironment false
  dashes := .kept

end Console

end Backmap.Command
