import Backmap.Machine
import Backmap.Path.Basic
import Backmap.Text.Utf8

/-!
# A file tree as a value

Paths are followed component by component from a current folder, and every refusal of the system has its
cause in the tree.
-/

namespace Backmap

/-- What a path can name. -/
inductive Workspace.Node where
  | folder
  | file (content : ByteArray)

instance : DecidableEq Workspace.Node
  | .folder, .folder => isTrue rfl
  | .folder, .file _ => isFalse nofun
  | .file _, .folder => isFalse nofun
  | .file a, .file b => decidable_of_iff (a.data = b.data) (by rw [Workspace.Node.file.injEq, ByteArray.ext_iff])

structure Workspace where
  /-- The components of the current folder. -/
  cwd : List String
  /-- Everything but the root, by its components from the root on. -/
  nodes : List (List String × Workspace.Node)

namespace Workspace

def find? (w : Workspace) (place : List String) : Option Node :=
  if place = [] then some .folder else (w.nodes.find? (·.1 == place)).map (·.2)

/-- Where a path leads: to a node, or to a name that is free in an existing folder. -/
inductive Place where
  | taken (place : List String) (node : Node)
  | free (place : List String)

/-- The greatest sizes, in bytes, of a component and of a whole path. -/
def maxName : Nat := 255

def maxPath : Nat := 4095

/-- Follows components from a place. Each one needs a folder to be looked up in. -/
def follow (w : Workspace) (here : List String) : List String → Except OsError.Kind Place
  | [] =>
    match w.find? here with
    | some node => .ok (.taken here node)
    | none => .error .notFound
  | piece :: rest =>
    match w.find? here with
    | some .folder =>
      if piece = "" ∨ piece = "." then w.follow here rest
      else if piece = ".." then w.follow here.dropLast rest
      else if maxName < piece.utf8ByteSize then .error .nameTooLong
      else
        match w.find? (here ++ [piece]), rest with
        | some _, _ => w.follow (here ++ [piece]) rest
        | none, [] => .ok (.free (here ++ [piece]))
        | none, _ => .error .notFound
    | some (.file _) => .error .notFolder
    | none => .error .notFound

/-- Looks a path up. -/
def locate (w : Workspace) (path : String) : Except Fault Place :=
  let refuse (kind : OsError.Kind) : Except Fault Place := .error (.os ⟨kind, path⟩)
  let cs := path.toList
  if cs.contains '\x00' then .error .nulInPath
  else if cs = [] then refuse .notFound
  else if maxPath < path.utf8ByteSize then refuse .nameTooLong
  else
    let start := if Path.isAbsolute cs then [] else w.cwd
    match w.follow start ((Path.pieces cs).map String.ofList) with
    | .ok place => .ok place
    | .error kind => refuse kind

/-- The node that a path names. -/
def node (w : Workspace) (path : String) : Except Fault Node :=
  match w.locate path with
  | .error e => .error e
  | .ok (.taken _ node) => .ok node
  | .ok (.free _) => .error (.os ⟨.notFound, path⟩)

/-- The text of a file: undecodable bytes are replaced and line endings unified. -/
def decode (content : ByteArray) : String :=
  String.ofList (Text.unifyNewlines (Text.Utf8.decode content))

def read (w : Workspace) (path : String) : Except Fault Reading :=
  match w.node path with
  | .ok (.file content) => .ok (.text (decode content))
  | .ok .folder => .ok (.refused ⟨.isFolder, path⟩)
  | .error (.os e) => .ok (.refused e)
  | .error e => .error e

/-- Whether a path names a file; only a name that is too long is a fault. -/
def isFile (w : Workspace) (path : String) : Except Fault Bool :=
  match w.node path with
  | .ok (.file _) => .ok true
  | .error (.os ⟨.nameTooLong, p⟩) => .error (.os ⟨.nameTooLong, p⟩)
  | _ => .ok false

def isFolder (w : Workspace) (path : String) : Except Fault Bool :=
  match w.node path with
  | .ok .folder => .ok true
  | .error (.os ⟨.nameTooLong, p⟩) => .error (.os ⟨.nameTooLong, p⟩)
  | _ => .ok false

/-- The names in the folder at a place. -/
def names (w : Workspace) (place : List String) : List String :=
  w.nodes.filterMap fun (p, _) => if p.dropLast = place then p.getLast? else none

/-- The folders in the folder that a path names; each is looked up by its own path. -/
def folders (w : Workspace) (path : String) : Except Fault (List String) :=
  match w.locate path with
  | .error e => .error e
  | .ok (.free _) => .error (.os ⟨.notFound, path⟩)
  | .ok (.taken _ (.file _)) => .error (.os ⟨.notFolder, path⟩)
  | .ok (.taken place .folder) =>
    (w.names place).filterM fun name => w.isFolder (String.ofList (Path.join path.toList name.toList))

/-- Puts a node at a place, over whatever is there. -/
def put (w : Workspace) (place : List String) (node : Node) : Workspace :=
  if (w.find? place).isSome then
    { w with nodes := w.nodes.map fun (p, e) => if p = place then (p, node) else (p, e) }
  else { w with nodes := w.nodes ++ [(place, node)] }

/-- Makes one folder. -/
def makeFolder (w : Workspace) (path : String) : Except Fault Workspace :=
  match w.locate path with
  | .error e => .error e
  | .ok (.taken _ _) => .error (.os ⟨.alreadyExists, path⟩)
  | .ok (.free place) => .ok (w.put place .folder)

/-- Replaces the content of a file, which is made if it is not there. -/
def write (w : Workspace) (path : String) (content : ByteArray) : Except Fault Workspace :=
  match w.locate path with
  | .error e => .error e
  | .ok (.taken _ .folder) => .error (.os ⟨.isFolder, path⟩)
  | .ok (.taken place (.file _)) => .ok (w.put place (.file content))
  | .ok (.free place) => .ok (w.put place (.file content))

end Workspace

/-- A machine with the file tree that a state holds. -/
def Machine.ofState {σ : Type} (dialect : Json.Dialect) (workspace : σ → Workspace) : Machine (StateM σ) where
  read path := fun s => ((workspace s).read path, s)
  isFile path := fun s => ((workspace s).isFile path, s)
  folders path := fun s => ((workspace s).folders path, s)
  json := dialect

end Backmap
