import Backmap.Command.Line
import Backmap.Diagnostic.Checker
import Backmap.Directive

/-!
# Carrying out commands

The exit code is 0 if a command found nothing to report, 1 if it reported a diagnostic, 2 if it failed, and 130 if
it was interrupted.
-/

namespace Backmap.Command

/-- What a command needs of the system. -/
structure Host (m : Type → Type) where
  machine : Machine m
  /-- Standard input to its end; nothing if the user interrupts it. -/
  input : m (Except Fault (Option String))
  /-- Writes to standard output. -/
  print : String → m (Except Fault Unit)
  /-- Writes to standard error. -/
  tell : String → m (Except Fault Unit)
  /-- Makes an empty file, and the folders on the way to it. -/
  create : String → m (Except Fault Unit)
  /-- Writes a text to a file that has been made, and closes it. -/
  save : String → String → m (Except Fault Unit)
  /-- The home folder that the system knows of a user, or of this one. -/
  home : Option String → m (Except Fault (Option String))
  /-- The one path of what a path leads to, or will lead to once it is made. -/
  resolve : String → m (Except Fault String)
  /-- The time of day. -/
  clock : m String
  /-- How reports are coloured, by the environment. -/
  palette : List (String × String) → Palette
  dashes : Dashes

/-- Where a command runs. -/
structure Setting where
  cwd : String
  environment : List (String × String)
  /-- The least level of what is told. -/
  level : Log.Level

/-- What ends a command early. -/
inductive Ending where
  | fault (f : Fault)
  | interrupted
  | exit (code : Nat)

variable {m : Type → Type} [Monad m]

abbrev Program (m : Type → Type) := ExceptT Ending m

/-- The first five characters of a level's name, or all of them and spaces. -/
def levelField (l : Log.Level) : String :=
  let cs := l.name.toList.take 5
  String.ofList (cs ++ List.replicate (5 - cs.length) ' ')

def logLine (time : String) (e : Log.Entry) : String :=
  let field := levelField e.level
  s!"{time} [{field}] {e.channel}: {e.text}\n"

/-- Tells what is important enough. Where it cannot be told, it is left untold. -/
def tellEntry (host : Host m) (level : Log.Level) (e : Log.Entry) : m Unit := do
  if e.atLeast level then discard (host.tell (logLine (← host.clock) e))

def log (host : Host m) (s : Setting) (level : Log.Level) (text : String) : Program m Unit :=
  ExceptT.lift (tellEntry host s.level ⟨level, program, text⟩)

/-- Tells the log of something that was done. -/
def tellAll (host : Host m) (level : Log.Level) (entries : Log) : m Unit :=
  entries.toList.forM (tellEntry host level)

/-- Runs a task and tells its log. -/
def perform {α : Type} (host : Host m) (s : Setting) (t : Task m α) : Program m α :=
  ExceptT.mk do
    let (result, entries) ← t.run.run #[]
    tellAll host s.level entries
    pure (result.mapError .fault)

def orFault {α : Type} (r : Except Fault α) : Program m α := ExceptT.mk (pure (r.mapError .fault))

/-- Has the system do something. -/
def ask {α : Type} (x : m (Except Fault α)) : Program m α := ExceptT.mk (do pure ((← x).mapError .fault))

/-- The home folder of a user; of this one if there is no name, where the environment comes first. -/
def homeOf (host : Host m) (s : Setting) (user : List Char) : Program m (Option String) :=
  if user = [] then
    match (s.environment.find? (·.1 == "HOME")).map (·.2) with
    | some home => pure (some home)
    | none => ask (host.home none)
  else ask (host.home (some (String.ofList user)))

/-- A home folder with what follows it, if it has the form of one. -/
def underHome (home : String) (rest : List (List Char)) : Except Fault Path.Tidy :=
  let home := Text.dropTailWhile (· == '/') home.toList
  let home := if home = [] then ['/'] else home
  if home.head? = some '~' then .error .homeUnknown
  else
    let t := Path.Tidy.ofString (String.ofList home)
    .ok ⟨t.root, t.parts ++ rest⟩

/-- Puts a home folder in the place of a tilde. -/
def expandHome (host : Host m) (s : Setting) (path : Path.Tidy) : Program m Path.Tidy :=
  match path.root, path.parts with
  | [], ('~' :: user) :: rest => do
    match ← homeOf host s user with
    | none => throw (.fault .homeUnknown)
    | some home => orFault (underHome home rest)
  | _, _ => pure path

/-- The text of a value that is needed. -/
def Value.need (use : Fault.Use) : Value → Except Fault String
  | text s => .ok s
  | nothing => .error (.noValue use)

/-- The text of a value, where there is one, that is needed. -/
def needed? (use : Fault.Use) (v : Option Value) : Program m (Option String) :=
  match v with
  | none => pure none
  | some v => do pure (some (← orFault (v.need use)))

/-- Reads a file, or standard input where no file or `-` is named. -/
def readInput (host : Host m) (s : Setting) (source : Option String) (label : String) : Program m String := do
  if source = none ∨ source = some "-" then
    match ← ask host.input with
    | some text => pure text
    | none => throw .interrupted
  else
    let path ← expandHome host s (Path.Tidy.ofString (source.getD ""))
    let reading ← ask (host.machine.read path.text)
    match reading.text? with
    | some text => pure text
    | none =>
      log host s .error s!"{label} not readable: {reading.reason}"
      throw (.exit 2)

/-- The file that output goes to; none if it goes to standard output. -/
def outputFile (host : Host m) (s : Setting) (p : Parsed) : Program m (Option String) := do
  match p.value? "--output" with
  | none => pure none
  | some v =>
    let dest ← orFault (v.need .path)
    if dest = "-" then pure none
    else
      let path ← expandHome host s (Path.Tidy.ofString dest)
      pure (some (← ask (host.resolve path.text)))

/-- Makes the file that output goes to, over the one that is there. -/
def openOutput (host : Host m) (s : Setting) (p : Parsed) : Program m (Option String) := do
  let file ← outputFile host s p
  if let some file := file then ask (host.create file)
  pure file

def writeOutput (host : Host m) (file : Option String) (text : String) : Program m Unit :=
  match file with
  | none => ask (host.print text)
  | some file => ask (host.save file text)

/-- Writes what is left to be written to an output that is a file. -/
def closeOutput (host : Host m) (file : Option String) (text : String) : Program m Unit :=
  match file with
  | none => pure ()
  | some file => ask (host.save file text)

/-- The format that is asked for. -/
def chosenFormat (p : Parsed) : Except Fault Format := do
  match p.value? "--format" with
  | none => .ok .plain
  | some v => Format.ofName (← v.need .format)

/-- Tells how many diagnostics there are, where the report is for people. -/
def tellTally (host : Host m) (format : Format) (tally : Tally) : Program m Unit := do
  if format = .plain ∨ format = .terminal then ask (host.tell s!"--- {tally.summary} ---\n")

/-- Reports diagnostics. -/
def emit (host : Host m) (s : Setting) (p : Parsed) (groups : Groups) : Program m Nat := do
  let file ← openOutput host s p
  let format ← orFault (chosenFormat p)
  let report ← ExceptT.lift (Report.render host.machine.read (host.palette s.environment) format
    { version := programVersion } groups)
  writeOutput host file report.written
  match report.fault with
  | some f => throw (.fault f)
  | none =>
    tellTally host format report.tally
    pure (if report.tally.total = 0 then 0 else 1)

/-- The diagnostics of compiler output. -/
def reconciled (host : Host m) (s : Setting) (p : Parsed) : Program m Groups := do
  let settings ← orFault (Settings.ofEnvironment s.environment)
  let distance ← needed? .distance (p.value? "--max-snap-distance")
  let settings := settings.change { maxSnapDistance := distance.bind fun text => (Numeral.read text).toOption }
  if settings.maxSnapDistance < 0 then
    throw (.fault (.settings "--max-snap-distance must be non-negative"))
  let output ← readInput host s ((p.operands.getD []).head?) "compiler output"
  let markerToken ← needed? .token (p.value? "--marker-token")
  let (session, warnings) := Session.start (settings.change { markerToken })
  ExceptT.lift (tellAll host s.level warnings)
  let root := (← needed? .path (p.value? "--root")).getD "."
  let compileRoot ← needed? .path (p.value? "--compile-root")
  let outcome ← ExceptT.lift (session.run s.cwd host.machine host.machine.read { output, root, compileRoot })
  ExceptT.lift (tellAll host s.level outcome.log)
  let groups ← orFault outcome.result
  log host s .info s!"Batch: {outcome.session.counts.summary}"
  pure groups

def reconcile (host : Host m) (s : Setting) (p : Parsed) : Program m Nat := do
  emit host s p (← reconciled host s p)

/-- The line that lists a directive. -/
def directiveLine (path : String) (index : Nat) (d : Directive) : String :=
  let place := index + 1
  let kind := if d.inline then "inline" else "standalone"
  s!"{path}:{place}: {d.text} ({kind})\n"

/-- What has been listed, and what ended the listing early, if anything did. -/
structure Listing where
  written : String
  ending : Option Ending

/-- Shows what was found in a file: the lines where the output is no file, and how many there are. -/
def showFound (host : Host m) (file : Option String) (path lines : String) (count : Nat) : Program m Unit := do
  if file.isNone then ask (host.print lines)
  let noun := if count = 1 then "contract" else "contracts"
  ask (host.tell s!"{path}: {count} inco {noun}\n")

/-- Lists the directives of files behind what is `written`. -/
def listAll (host : Host m) (s : Setting) (file : Option String) : List String → String → m Listing
  | [], written => pure ⟨written, none⟩
  | path :: rest, written => do
    match ← (readInput host s (some path) "source file").run with
    | .error e => pure ⟨written, some e⟩
    | .ok text =>
      let found := Directive.scan text
      let lines := String.join (found.map fun (index, d) => directiveLine path index d)
      match ← (showFound host file path lines found.length).run with
      | .error e => pure ⟨written ++ lines, some e⟩
      | .ok () => listAll host s file rest (written ++ lines)

/-- Lists the directives of files. What was listed before a failure is kept. -/
def directives (host : Host m) (s : Setting) (p : Parsed) : Program m Nat := do
  let file ← openOutput host s p
  let listing ← ExceptT.lift (listAll host s file (p.operands.getD []) "")
  closeOutput host file listing.written
  match listing.ending with
  | some e => throw e
  | none => pure 0

def shadow (host : Host m) (s : Setting) (p : Parsed) : Program m Nat := do
  let source := ((p.operands.getD []).head?).getD ""
  let settings ← orFault (Settings.ofEnvironment s.environment)
  let root := (← needed? .path (p.value? "--root")).getD "."
  match ← perform host s (Overlay.load host.machine s.cwd root settings) with
  | none =>
    log host s .error s!"No overlay under {root}; run `inco gen` first"
    pure 2
  | some table =>
    match table.shadow? s.cwd (Path.normalize s.cwd source) with
    | none =>
      log host s .error s!"No shadow file for {source} (does it contain @inco: directives?)"
      pure 2
    | some shadow =>
      ask (host.print (shadow ++ "\n"))
      pure 0

/-- The diagnostics of the checker's output. -/
def diagnosed (host : Host m) (s : Setting) (p : Parsed) : Program m Groups := do
  let output ← readInput host s ((p.operands.getD []).head?) "diagnose output"
  let file := Path.normalize s.cwd ((← needed? .path (p.value? "--file")).getD "")
  let ds ← perform host s (Checker.parse host.machine.json (some output) file)
  pure (if ds.isEmpty then [] else [(file, ds)])

def diagnose (host : Host m) (s : Setting) (p : Parsed) : Program m Nat := do
  emit host s p (← diagnosed host s p)

def Name.run (host : Host m) (s : Setting) (p : Parsed) : Name → Program m Nat
  | reconcile => Command.reconcile host s p
  | directives => Command.directives host s p
  | shadow => Command.shadow host s p
  | diagnose => Command.diagnose host s p

/-- Tells why a command ended early, and gives the exit code. -/
def conclude (host : Host m) (level : Log.Level) : Ending → m Nat
  | .exit code => pure code
  | .interrupted => do
    tellEntry host level ⟨.info, program, "Interrupted by user."⟩
    pure 130
  | .fault (.settings text) => do
    tellEntry host level ⟨.error, program, "Configuration error: " ++ text⟩
    pure 2
  | .fault f => do
    tellEntry host level ⟨.error, program, "Unhandled exception: " ++ f.message⟩
    pure 2

def levelOf : Nat → Log.Level
  | 0 => .warning
  | 1 => .info
  | _ => .debug

/-- Carries out a command line and gives the exit code. -/
def run (host : Host m) (cwd : String) (environment : List (String × String)) (args : List String) : m Nat := do
  match readCall host.dashes args with
  | .error (.help g) =>
    discard (host.print g.help)
    pure 0
  | .error .version =>
    discard (host.print s!"{program} {programVersion}\n")
    pure 0
  | .error (.misuse g text) =>
    discard (host.tell s!"{g.usage}{g.program}: error: {text}\n")
    pure 2
  | .ok ⟨_, none⟩ =>
    discard (host.tell mainHelp)
    pure 2
  | .ok ⟨verbosity, some (name, p)⟩ =>
    let level := levelOf verbosity
    match ← (name.run host ⟨cwd, environment, level⟩ p).run with
    | .ok code => pure code
    | .error e => conclude host level e

end Backmap.Command
