import Backmap.Anchor.Cache
import Backmap.Diagnostic
import Backmap.Marker
import Backmap.Overlay
import Backmap.Record

/-!
# Batches

A batch takes the output of one compiler run back to the sources. Each record is attributed to a source, by its
path or through the shadow that stands for one; its line is moved from the shadow to the source, if it comes
from there, and snapped onto a directive; what lies outside the workspace or repeats an earlier diagnostic is
dropped, and the rest is grouped by file.
-/

namespace Backmap

/-- What became of the records of a batch. -/
structure Counts where
  parsed : Nat := 0
  resolved : Nat := 0
  snapped : Nat := 0
  fallbacks : Nat := 0
  duplicates : Nat := 0
  unattributed : Nat := 0
  outside : Nat := 0
  deriving DecidableEq, Repr

def Counts.summary (c : Counts) : String :=
  s!"parsed={c.parsed}, resolved={c.resolved}, snapped={c.snapped}, fallbacks={c.fallbacks}, " ++
    s!"duplicates={c.duplicates}, dropped_unattributed={c.unattributed}, dropped_outside={c.outside}"

/-- Diagnostics by file, in the order in which the files were first seen. -/
abbrev Groups := List (String × List Diagnostic)

namespace Groups

/-- Whether a file already has a diagnostic with this line and message. -/
def has (g : Groups) (d : Diagnostic) : Bool :=
  g.any fun (_, ds) => ds.any fun e => e.file == d.file && e.line == d.line && e.message == d.message

/-- Adds a diagnostic at the end of the group of its file. -/
def add (d : Diagnostic) : Groups → Groups
  | [] => [(d.file, [d])]
  | (file, ds) :: rest =>
    if file = d.file then (file, ds ++ [d]) :: rest else (file, ds) :: add d rest

/-- All diagnostics, group by group. -/
def diagnostics (g : Groups) : List Diagnostic := g.flatMap (·.2)

end Groups

/-- The state of a batch. -/
structure Batch where
  cache : AnchorCache
  counts : Counts := {}
  /-- The markers of the shadows read so far; nothing for one that could not be read. -/
  markers : List (String × Option (List Marker)) := []
  groups : Groups := []

/-- A computation of a batch over `m`. What it has done stays done when a fault ends it. -/
abbrev BatchM (m : Type → Type) := ExceptT Fault (StateT Batch (StateT Log m))

namespace Batch

/-- What stays the same during a batch. -/
structure Frame where
  settings : Settings
  cwd : String
  /-- The folder from which the compiler's paths are read. -/
  base : String
  workspace : String
  /-- The sources of the shadows. -/
  sources : List (String × String)

/-- Where a record comes from. -/
inductive Origin where
  | source (path : String)
  | shadow (path source : String)
  | foreign (path : String)
  deriving DecidableEq, Repr

/-- A path of the compiler in normal form. -/
def Frame.resolve (f : Frame) (path : String) : String :=
  Path.normalize f.cwd (String.ofList (Path.join f.base.toList path.toList))

def Frame.origin (f : Frame) (r : Record) : Origin :=
  let path := f.resolve r.path
  match Substitution.sourceOf? f.sources path with
  | some source => .shadow path source
  | none => if f.settings.isSource path then .source path else .foreign path

/-- The diagnostic that a record becomes at its place. -/
def Frame.diagnostic (f : Frame) (r : Record) (file : String) (line : Int) : Diagnostic :=
  { file, line, message := r.message, source := .str f.settings.sourceTag }

def channel : String := "incodiag.reconciler"

variable {m : Type → Type} [Monad m]

def log (level : Log.Level) (text : String) : BatchM m Unit :=
  modifyThe Log (·.push ⟨level, channel, text⟩)

/-- Runs a task within a batch. -/
def task {α : Type} (t : Task m α) : BatchM m α :=
  ExceptT.mk (liftM t.run : StateT Batch (StateT Log m) (Except Fault α))

def count (change : Counts → Counts) : BatchM m Unit :=
  modifyThe Batch fun b => { b with counts := change b.counts }

/-- The index of a source, from the cache of the batch. -/
def anchors (read : Reader m) (path : String) : BatchM m (Option AnchorIndex) := do
  let answer ← task (Task.lift (AnchorCache.request read (← getThe Batch).cache path))
  modifyThe Batch fun b => { b with cache := answer.cache }
  match answer.index with
  | some index =>
    if answer.fresh then
      modifyThe Log (·.push ⟨.debug, AnchorCache.channel, AnchorCache.indexed index path⟩)
  | none => pure ()
  pure answer.index

/-- The line that a diagnostic in a source is shown at. A source that cannot be read leaves it where it is. -/
def snap (f : Frame) (read : Reader m) (path : String) (line : Int) : BatchM m Int := do
  match ← anchors read path with
  | none =>
    count fun c => { c with fallbacks := c.fallbacks + 1 }
    let reason := match AnchorCache.lookup? path (← getThe Batch).cache.failures with
      | some reading => reading.reason
      | none => "unknown error"
    log .warning s!"[partial-resolution] cannot index {path}: {reason}"
    pure line
  | some index =>
    match index.snap? line f.settings.maxSnapDistance with
    | none => pure line
    | some anchor =>
      if anchor ≠ line then count fun c => { c with snapped := c.snapped + 1 }
      pure anchor

/-- The markers of a shadow, which is read once in a batch; nothing if it cannot be read. -/
def markersOf (f : Frame) (read : Reader m) (path : String) : BatchM m (Option (List Marker)) := do
  match AnchorCache.lookup? path (← getThe Batch).markers with
  | some known => pure known
  | none =>
    let reading ← task (Task.lift (read path))
    let found ← match reading.text? with
      | some text => ExceptT.mk (pure ((Marker.findAll text f.settings.markerToken).map some))
      | none => do
        log .warning s!"[partial-resolution] cannot read shadow {path}: {reading.reason}"
        pure none
    modifyThe Batch fun b => { b with markers := b.markers ++ [(path, found)] }
    pure found

/-- The source and the line, counted from zero, that a record concerns. -/
def locate (f : Frame) (read : Reader m) (r : Record) : BatchM m (Option (String × Int)) := do
  let line : Int := (r.line - 1 : Nat)
  match f.origin r with
  | .source path => pure (some (path, ← snap f read path line))
  | .foreign path =>
    log .debug s!"[unattributed] {path}: not an original or shadow file"
    pure none
  | .shadow path source =>
    let markers := (← markersOf f read path).getD []
    match Marker.governing? markers line, Marker.resolve? markers line with
    | some marker, some moved =>
      if Path.baseName marker.path ≠ Path.baseName source then
        log .debug s!"Marker in {path} names {marker.path}, overlay says {source}"
      pure (some (source, ← snap f read source moved))
    | _, _ =>
      count fun c => { c with fallbacks := c.fallbacks + 1 }
      let number := Numeral.write r.line
      log .debug s!"[partial-resolution] no marker before {path}:{number}; keeping raw line"
      pure (some (source, line))

/-- Takes one record into the batch. -/
def take (f : Frame) (read : Reader m) (r : Record) : BatchM m Unit := do
  match ← locate f read r with
  | none => count fun c => { c with unattributed := c.unattributed + 1 }
  | some (file, line) =>
    let d := f.diagnostic r file line
    if !Path.isWithin file f.workspace then
      log .debug s!"Dropping {file}: outside workspace {f.workspace}"
      count fun c => { c with outside := c.outside + 1 }
    else if (← getThe Batch).groups.has d then
      count fun c => { c with duplicates := c.duplicates + 1 }
    else
      modifyThe Batch fun b => { b with groups := b.groups.add d }
      count fun c => { c with resolved := c.resolved + 1 }

def takeAll (f : Frame) (read : Reader m) : List Record → BatchM m Unit
  | [] => pure ()
  | r :: rest => do
    take f read r
    takeAll f read rest

/-- Which substitution table a batch uses. -/
inductive Table where
  /-- The one that the overlay document gives. -/
  | load
  | given (table : Option Substitution)

structure Request where
  output : String
  root : String
  /-- The folder that the compiler ran in; by default that of the module. -/
  compileRoot : Option String := none
  table : Table := .load

/-- The folder from which the compiler's paths are read: the one that is given, that of the module, or the
workspace. -/
def findBase (s : Settings) (cwd : String) (machine : Machine m) (q : Request) : Task m String :=
  match q.compileRoot with
  | some root => pure (Path.normalize cwd root)
  | none => do
    match ← Overlay.findModule machine (Path.normalize cwd q.root) s.moduleMarker with
    | some folder => pure (Path.normalize cwd folder.text)
    | none => pure (Path.normalize cwd q.root)

def findTable (s : Settings) (cwd : String) (machine : Machine m) (q : Request) (base : String) :
    Task m (Option Substitution) :=
  match q.table with
  | .given table => pure table
  | .load => Overlay.load machine cwd base s

/-- Tells which shadows have more than one source. -/
def tellClashes : List Substitution.Clash → Task m Unit
  | [] => pure ()
  | c :: rest => do
    Task.log .warning Overlay.channel c.message
    tellClashes rest

/-- Finds out what stays the same during a batch. -/
def frame (s : Settings) (cwd : String) (machine : Machine m) (q : Request) : Task m Frame := do
  let base ← findBase s cwd machine q
  let table ← findTable s cwd machine q base
  let (sources, clashes) := (table.getD {}).reverse
  tellClashes clashes
  if sources = [] then
    Task.log .debug channel "No substitution table; shadow-tree diagnostics will be dropped"
  pure { settings := s, cwd, base, workspace := Path.normalize cwd q.root, sources }

/-- A whole batch. -/
def run (s : Settings) (cwd : String) (machine : Machine m) (read : Reader m) (q : Request) :
    BatchM m Groups := do
  modifyThe Batch fun b => { cache := b.cache.clear }
  let f ← task (frame s cwd machine q)
  let records ← task (Record.parse q.output s.noisePatterns)
  count fun c => { c with parsed := records.length }
  takeAll f read records
  let b ← getThe Batch
  let resolved := b.counts.resolved
  let files := b.groups.length
  log .info s!"Reconciled {resolved} diagnostic(s) in {files} file(s) [{b.counts.summary}]"
  pure b.groups

end Batch

/-- Whoever runs batches one after the other: the settings, and what the last batch left. -/
structure Session where
  settings : Settings
  cache : AnchorCache
  counts : Counts := {}

namespace Session

/-- A new session, with its own cache unless one is given, and what is doubtful about its settings. -/
def start (s : Settings) (cache : AnchorCache := { tokens := s.directiveTokens }) : Session × Log :=
  (⟨s, cache, {}⟩,
    (s.warnings.map fun w => ⟨.warning, Batch.channel, "ReconcileConfig: " ++ w⟩).toArray)

/-- The outcome of a batch: what it found or the fault that ended it, the session behind it, and the log. -/
structure Outcome where
  result : Except Fault Groups
  session : Session
  log : Log

def run {m : Type → Type} [Monad m] (session : Session) (cwd : String) (machine : Machine m) (read : Reader m)
    (q : Batch.Request) : m Outcome := do
  let start : Batch := { cache := session.cache, counts := session.counts }
  let ((result, b), log) ← ((Batch.run session.settings cwd machine read q).run.run start).run #[]
  pure ⟨result, { session with cache := b.cache, counts := b.counts }, log⟩

end Session

end Backmap
