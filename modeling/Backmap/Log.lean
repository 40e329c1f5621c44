import Backmap.Fault

/-!
# The log

Operations tell what they do in a log. What was told stays told when a fault ends an operation.
-/

namespace Backmap

namespace Log

inductive Level where
  | debug
  | info
  | warning
  | error
  deriving DecidableEq, Repr

def Level.rank : Level → Nat
  | debug => 0
  | info => 1
  | warning => 2
  | error => 3

def Level.name : Level → String
  | debug => "DEBUG"
  | info => "INFO"
  | warning => "WARNING"
  | error => "ERROR"

structure Entry where
  level : Level
  channel : String
  text : String
  deriving DecidableEq, Repr

def Entry.atLeast (e : Entry) (level : Level) : Bool := level.rank ≤ e.level.rank

end Log

abbrev Log := Array Log.Entry

/-- A computation over `m` that keeps a log and may end with a fault. -/
abbrev Task (m : Type → Type) := ExceptT Fault (StateT Log m)

namespace Task

variable {m : Type → Type} [Monad m]

def log (level : Log.Level) (channel text : String) : Task m Unit :=
  modify (·.push ⟨level, channel, text⟩)

/-- An action of `m` as a task. -/
def lift {α : Type} (action : m (Except Fault α)) : Task m α :=
  ExceptT.mk (StateT.lift action)

/-- Runs a task and hands on how it ended. -/
def attempt {α : Type} (t : Task m α) : Task m (Except Fault α) :=
  ExceptT.mk (t.run.map .ok)

end Task

end Backmap
