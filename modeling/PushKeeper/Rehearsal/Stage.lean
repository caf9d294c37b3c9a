import PushKeeper.Rehearsal.Cast

namespace PushKeeper.Rehearsal

open Store (Access FaultyStore)

structure Stage where
  receiver : Receiver FaultyStore
  cast : Cast
  printed : List Feed.Event

namespace Stage

inductive RunResult
  | held
  | done (outcome : Fetch.Outcome)

def onReceiver (s : Stage) (r : Receiver FaultyStore) : Stage :=
  { s with
    receiver := r
    printed := s.printed ++ Receiver.alertsSince s.receiver.history r.history }

def act {α : Type} (s : Stage) (work : Access (Receiver FaultyStore) α) :
    Except Failure α × Stage :=
  let (result, r) := work.on s.receiver
  (result, s.onReceiver r)

def settle (s : Stage) : Stage :=
  let (r, cast) := s.receiver.settle Cast.respond s.cast
  { s.onReceiver r with cast }

def hold (s : Stage) : Stage :=
  { s with cast := { s.cast with gateOpen := false } }

def letThrough (s : Stage) : Stage :=
  match s.receiver.call? with
  | some call =>
    let (reply, cast) := s.cast.reply call
    { s.onReceiver (s.receiver.answer reply) with cast }
  | none => s

def release (s : Stage) : Bool × Stage :=
  (s.receiver.call?.isSome, s.letThrough.settle)

def «open» (s : Stage) : Bool × Stage :=
  (s.receiver.call?.isSome, { s with cast := { s.cast with gateOpen := true } }.letThrough.settle)

def line (text : String) (s : Stage) : Except Failure Bool × Stage :=
  match Feed.Request.ofLine text with
  | .error e => (.error e, s)
  | .ok none => (.ok false, s)
  | .ok (some request) =>
    let (events, r) := s.receiver.apply request
    let s := s.onReceiver r
    (.ok true, { s with printed := s.printed ++ events })

/-- Fetches on behalf of the caller, past the worker. It is not begun while the gate is shut. -/
def runFetch (s : Stage) : RunResult × Stage :=
  if !s.cast.gateOpen then (.held, s)
  else
    let r := s.receiver
    let (progress, store) := Fetch.Progress.start r.policy r.clock.toNat r.store
    let s := { s with receiver := { r with store } }
    match progress with
    | .finished outcome => (.done outcome, s)
    | .pulling strategy => pull strategy s
    | .enqueuing strategy =>
      let (answer, service) := s.cast.service.enqueue strategy
      let s := { s with cast := { s.cast with service } }
      match Fetch.Progress.afterEnqueue strategy answer with
      | .finished outcome => (.done outcome, s)
      | _ => pull strategy s
where
  pull (strategy : Fetch.Strategy) (s : Stage) : RunResult × Stage :=
    let (answer, service) := s.cast.service.pull
    let s := { s with cast := { s.cast with service } }
    match Fetch.Progress.afterPull strategy answer with
    | .finished outcome => (.done outcome, s)
    | _ => (.held, s)

def setClock (time : UInt64) (s : Stage) : Stage :=
  { s with receiver := { s.receiver with clock := time } }

def advanceClock (delta : UInt64) (s : Stage) : Stage :=
  s.setClock (s.receiver.clock + delta)

def refuse (refused : List (StoreAccess × String)) (s : Stage) : Stage :=
  { s with receiver := { s.receiver with store := { s.receiver.store with refused } } }

def setResponse (response : Response) (s : Stage) : Stage :=
  { s with cast := { s.cast with service := { s.cast.service with response } } }

def setActive (active : Bool) (s : Stage) : Stage :=
  match s.receiver.delivery with
  | .fixed _ => { s with receiver := { s.receiver with delivery := .fixed active } }
  | .stored _ => s

def drop (s : Stage) : Stage :=
  s.onReceiver s.receiver.drop

end Stage

end PushKeeper.Rehearsal
