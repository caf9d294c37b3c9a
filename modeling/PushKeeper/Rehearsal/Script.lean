import PushKeeper.Worker.Attendance

namespace PushKeeper.Rehearsal

/-- A task: whether it waits to be let go, how often it lets others go first, what it submits before
its end, and how it ends. -/
structure Script where
  id : Nat
  ending : Ending
  hold : Bool
  yields : Nat
  next : List Script

instance : Inhabited Script := ⟨⟨0, .done, false, 0, []⟩⟩

mutual

def Script.work : Script → Nat
  | ⟨_, _, _, yields, next⟩ => yields + 8 + workAll next

def workAll : List Script → Nat
  | [] => 0
  | s :: rest => s.work + workAll rest

end

inductive Script.Progress
  | fresh
  | held
  | yielding (left : Nat)
  deriving DecidableEq

structure Workshop where
  worker : Worker Script
  progress : Script.Progress
  log : List String

namespace Workshop

def new (name : String) : Workshop := ⟨.new name, .fresh, []⟩

def write (w : Workshop) (word : String) (id : Nat) : Workshop :=
  { w with log := w.log ++ [word ++ " " ++ Text.Numeral.render id] }

def submit (w : Workshop) (script : Script) : Workshop :=
  { w with worker := w.worker.submit script }

def isHeld (w : Workshop) : Bool :=
  w.worker.current?.isSome && w.progress == .held

def conclude (w : Workshop) (script : Script) : Workshop :=
  let w := (script.next.foldl submit w).write "end" script.id
  { w with worker := (w.worker.conclude ⟨script.ending, false⟩).2, progress := .fresh }

def step? (w : Workshop) : Option (Workshop × Bool) :=
  match w.worker.current? with
  | none => if w.worker.isStill then none else some ({ w with worker := w.worker.advance }, false)
  | some script =>
    match w.progress with
    | .fresh =>
      let progress : Script.Progress := if script.hold then .held else .yielding script.yields
      some ({ w.write "start" script.id with progress }, false)
    | .held => none
    | .yielding (left + 1) => some ({ w with progress := .yielding left }, true)
    | .yielding 0 => some (w.conclude script, false)

def runWith (turns : Nat) : Nat → Workshop → Workshop
  | 0, w => w
  | fuel + 1, w =>
    if turns = 0 then w
    else
      match w.step? with
      | none => w
      | some (w, ends) => runWith (if ends then turns - 1 else turns) fuel w

def work (w : Workshop) : Nat :=
  let of (s : Option Script) : Nat := (s.map Script.work).getD 0
  of w.worker.current? + of w.worker.pending + 8

def turnBound : Nat := 500

def settle (w : Workshop) : Workshop :=
  w.runWith turnBound w.work

def waitIdle (w : Workshop) : Workshop :=
  let w := w.settle
  w.runWith w.work w.work

def release (w : Workshop) : Bool × Workshop :=
  match w.worker.current? with
  | some script =>
    if w.isHeld then (true, { w with progress := .yielding script.yields }.settle)
    else (false, w.settle)
  | none => (false, w.settle)

def drop (w : Workshop) : Workshop :=
  { w with worker := w.worker.close }

end Workshop

end PushKeeper.Rehearsal
