import Mathlib.Order.Lattice
import Mathlib.Algebra.Order.Ring.Nat

namespace SriovMacSync

/-! When the next pass is due.  There is no timer: a pass is bought by an event, a
failure or the operator.  Instants and durations are nanoseconds. -/

/-- Why a pass runs. -/
inductive Trigger where
  | start
  | operator
  | recovery
  | lostEvents
  | interfaceChange
  | forwardingChange
deriving DecidableEq, Repr

def second : Nat := 1000000000

def retryAfter : Nat := 5 * second

/-- How long a batch that only reported deletions may hold the pass off. -/
def ageingSettle : Nat := 5 * second

/-- The pace of the passes that batches buy. -/
def passPace : Nat := 200000000

structure Schedule where
  /-- nothing is a host with nothing owed -/
  due : Option Nat
  lastPass : Nat
  trigger : Trigger
deriving DecidableEq, Repr

namespace Schedule

def new (now : Nat) : Schedule where
  due := some now
  lastPass := now
  trigger := .start

variable (schedule : Schedule)

def passDue (now : Nat) : Bool := schedule.due.any (· ≤ now)

/-- A pass that could not run comes back soon. -/
def retrySoon (now : Nat) : Schedule := { schedule with due := some (now + retryAfter), lastPass := now }

/-- Nothing is owed until something claims a pass. -/
def completed (now : Nat) : Schedule := { schedule with due := none, lastPass := now }

/-- The earlier deadline stands, the newer reason names it. -/
def bringForward (due : Nat) (trigger : Trigger) : Schedule :=
  { schedule with due := some ((schedule.due.map (min due)).getD due), trigger }

def atOnce (now : Nat) (trigger : Trigger) : Schedule := { schedule with due := some now, trigger }

/-- How long the wait may be; nothing is for ever. -/
def waitFor (now : Nat) : Option Nat := schedule.due.map (· - now)

@[simp] theorem due_new (now : Nat) : (new now).due = some now := rfl

@[simp] theorem due_retrySoon (now : Nat) : (schedule.retrySoon now).due = some (now + retryAfter) := rfl

@[simp] theorem due_completed (now : Nat) : (schedule.completed now).due = none := rfl

@[simp] theorem due_bringForward (due : Nat) (trigger : Trigger) :
    (schedule.bringForward due trigger).due ≠ none := nofun

@[simp] theorem due_atOnce (now : Nat) (trigger : Trigger) : (schedule.atOnce now trigger).due = some now := rfl

end Schedule

/-- What a wait is told: milliseconds, rounded up, and less than none for a wait without
end. -/
def waitMillis : Option Nat → Int
  | some due => min ((due + 999999) / 1000000) 2147483647
  | none => -1

/-- Only a host with nothing owed waits without end. -/
theorem waitMillis_eq_neg_one {schedule : Schedule} {now : Nat} :
    waitMillis (schedule.waitFor now) = -1 ↔ schedule.due = none := by
  cases known : schedule.due with
  | none => simp [Schedule.waitFor, known, waitMillis]
  | some due =>
      simp only [Schedule.waitFor, known, Option.map_some, waitMillis, reduceCtorEq, iff_false]
      omega

end SriovMacSync
