import PushKeeper.Worker.Basic

namespace PushKeeper.Worker

variable {τ α : Type}

/-- How the code of a task comes to its end, and whether letting go of what is left of it panics: of the task
itself, of its error, or of what it panicked with. -/
structure Outcome where
  ending : Ending
  bursts : Bool
  deriving DecidableEq

abbrev Payload := Option String

/-- What a worker does between two looks into its place, with the lines that it logs. A panic leaves both as
they are by then. -/
abbrev Unwinding (τ α : Type) := ExceptT Payload (StateM (List String × Worker τ)) α

namespace Unwinding

def poll : Ending → Unwinding τ (Except Failure Unit)
  | .done => return .ok ()
  | .failed cause => return .error cause
  | .panicked message => throw message

def catching (body : Unwinding τ α) : Unwinding τ (Except Payload α) :=
  ExceptT.mk do return .ok (← body.run)

def log (lines : List String) : Unwinding τ Unit :=
  modify fun (before, w) => (before ++ lines, w)

def letGo (bursts : Bool) : Unwinding τ Unit :=
  if bursts then throw none else return ()

def count : Unwinding τ Unit :=
  modify fun (lines, w) => (lines, { w with completed := w.completed + 1 })

end Unwinding

def report : Except Payload (Except Failure Unit) → List String
  | .ok (.ok ()) => []
  | .ok (.error cause) => [s!"Queued task failed: {cause.message}"]
  | .error payload => ["Queued task panicked: " ++ payload.getD "unknown panic payload"]

open Unwinding in
/-- Runs a task. Only what comes out of the task is caught: what is left of it is let go of afterwards, and
before the task is counted. -/
def attend (o : Outcome) : Unwinding τ Unit := do
  log (report (← catching (poll o.ending)))
  letGo o.bursts
  count

/-- The running task ends; the lines are those that are logged. A panic that is not caught is the end of the
worker, which has no time to say so. -/
def conclude (o : Outcome) (w : Worker τ) : List String × Worker τ :=
  match w.phase with
  | .running _ =>
    match (attend o).run.run ([], w) with
    | (.ok (), lines, w) => (lines, { w with phase := .taking })
    | (.error _, lines, w) => (lines, { w with phase := .stopped })
  | _ => ([], w)

def collapse (w : Worker τ) : Worker τ :=
  match w.phase with
  | .running _ => { w with phase := .stopped }
  | _ => w

def Ending.caught : Ending → Except Payload (Except Failure Unit)
  | .done => .ok (.ok ())
  | .failed cause => .ok (.error cause)
  | .panicked message => .error message

theorem run_attend (o : Outcome) (lines : List String) (w : Worker τ) :
    (attend o).run.run (lines, w) =
      if o.bursts then (.error none, lines ++ report (Ending.caught o.ending), w)
      else (.ok (), lines ++ report (Ending.caught o.ending), { w with completed := w.completed + 1 }) := by
  obtain ⟨ending, bursts⟩ := o
  cases ending <;> cases bursts <;> rfl

theorem conclude_eq (o : Outcome) (w : Worker τ) :
    (w.conclude o).2 = if o.bursts then w.collapse else w.finish o.ending := by
  rw [conclude, collapse, finish, run_attend]
  cases o.bursts <;> cases w.phase <;> rfl

end PushKeeper.Worker
