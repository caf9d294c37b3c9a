import PushKeeper.Text.Numeral
import PushKeeper.Text.Quoted
import PushKeeper.Failure

namespace PushKeeper

inductive Ending
  | done
  | failed (cause : Failure)
  | panicked (message : Option String)
  deriving DecidableEq

inductive Worker.Phase (τ : Type)
  | waiting
  | parked
  | taking
  | running (task : τ)
  | rested
  | stopped
  deriving DecidableEq

/-- A worker, its place for a waiting task, and its counters. -/
structure Worker (τ : Type) where
  name : String
  pending : Option τ
  busy : Bool
  idle : Bool
  closed : Bool
  signal : Bool
  phase : Worker.Phase τ
  dropped : UInt64
  completed : UInt64
  deriving DecidableEq

namespace Worker

variable {τ : Type}

def new (name : String) : Worker τ :=
  ⟨name, none, false, true, false, false, .waiting, 0, 0⟩

def wake (w : Worker τ) : Worker τ :=
  match w.phase with
  | .parked => { w with phase := .taking }
  | _ => { w with signal := true }

def countDropped (w : Worker τ) : Worker τ :=
  if w.pending.isSome then { w with dropped := w.dropped + 1 } else w

section

variable (w : Worker τ)

@[simp] theorem wake_pending : w.wake.pending = w.pending := by unfold wake; split <;> rfl
@[simp] theorem wake_busy : w.wake.busy = w.busy := by unfold wake; split <;> rfl
@[simp] theorem wake_idle : w.wake.idle = w.idle := by unfold wake; split <;> rfl
@[simp] theorem wake_closed : w.wake.closed = w.closed := by unfold wake; split <;> rfl
@[simp] theorem wake_dropped : w.wake.dropped = w.dropped := by unfold wake; split <;> rfl
@[simp] theorem wake_completed : w.wake.completed = w.completed := by unfold wake; split <;> rfl
@[simp] theorem countDropped_pending : w.countDropped.pending = w.pending := by
  unfold countDropped; split <;> rfl
@[simp] theorem countDropped_busy : w.countDropped.busy = w.busy := by
  unfold countDropped; split <;> rfl
@[simp] theorem countDropped_idle : w.countDropped.idle = w.idle := by
  unfold countDropped; split <;> rfl
@[simp] theorem countDropped_closed : w.countDropped.closed = w.closed := by
  unfold countDropped; split <;> rfl
@[simp] theorem countDropped_signal : w.countDropped.signal = w.signal := by
  unfold countDropped; split <;> rfl
@[simp] theorem countDropped_phase : w.countDropped.phase = w.phase := by
  unfold countDropped; split <;> rfl
@[simp] theorem countDropped_completed : w.countDropped.completed = w.completed := by
  unfold countDropped; split <;> rfl

end

/-- Submits a task in place of the one that waits. A closed worker takes none. -/
def submit (w : Worker τ) (task : τ) : Worker τ :=
  if w.closed then w
  else
    let w := { w.countDropped with pending := some task }
    if w.busy then w else { w with busy := true, idle := false }.wake

def close (w : Worker τ) : Worker τ :=
  { w.countDropped with closed := true, pending := none }.wake

/-- The next step of the worker itself. It has none while it is asleep, at work or gone. -/
def advance (w : Worker τ) : Worker τ :=
  match w.phase with
  | .waiting =>
    if w.signal then { w with signal := false, phase := .taking } else { w with phase := .parked }
  | .taking =>
    if w.closed then { w with pending := none, busy := false, idle := true, phase := .rested }
    else
      match w.pending with
      | some task => { w with pending := none, phase := .running task }
      | none => { w with busy := false, idle := true, phase := .rested }
  | .rested => if w.closed then { w with phase := .stopped } else { w with phase := .waiting }
  | .parked => w
  | .running _ => w
  | .stopped => w

/-- The running task ends. It counts as completed however it ended. -/
def finish (w : Worker τ) (_ending : Ending) : Worker τ :=
  match w.phase with
  | .running _ => { w with completed := w.completed + 1, phase := .taking }
  | _ => w

def current? (w : Worker τ) : Option τ :=
  match w.phase with
  | .running task => some task
  | _ => none

def isStill (w : Worker τ) : Bool :=
  match w.phase with
  | .parked => true
  | .running _ => true
  | .stopped => true
  | _ => false

def describe (w : Worker τ) : String :=
  "LatestWinsExecutor \x7b name: " ++ Text.Quoted.encode w.name ++
    ", idle: " ++ toString w.idle ++
    ", dropped: " ++ Text.Numeral.render w.dropped.toNat ++
    ", completed: " ++ Text.Numeral.render w.completed.toNat ++ " \x7d"

end Worker

end PushKeeper
