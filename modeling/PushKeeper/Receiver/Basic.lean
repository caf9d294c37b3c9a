import PushKeeper.Feed.Transport
import PushKeeper.Fetch.Delivery
import PushKeeper.Fetch.Job
import PushKeeper.Broadcast.Bus
import PushKeeper.Worker.Basic

namespace PushKeeper

open Registration (AlertKind Endpoint Snapshot Status)
open Store (Access KeyValueStore)

inductive Receiver.Job
  | register (alerting : Bool)
  | retry
  | fetch
  deriving DecidableEq

inductive Receiver.InFlight
  | registering (endpoint : Option Endpoint) (alerting : Bool)
  | enqueuing (strategy : Fetch.Strategy)
  | pulling (strategy : Fetch.Strategy)
  deriving DecidableEq

inductive Receiver.Notice
  | published (snapshot : Snapshot)
  | alerted (kind : AlertKind)
  deriving DecidableEq

/-- A receiver on a store. The clock shows milliseconds since the epoch. -/
structure Receiver (σ : Type) where
  store : σ
  clock : UInt64
  policy : Fetch.Policy
  delivery : Fetch.Delivery
  history : List Receiver.Notice
  worker : Worker Receiver.Job
  inFlight : Option Receiver.InFlight

namespace Receiver

variable {σ : Type}

def workerName : String := "relaypush-worker"

def new (name : String) (store : σ) (clock : UInt64) (policy : Fetch.Policy)
    (delivery : Fetch.Delivery) : Receiver σ :=
  ⟨store, clock, policy, delivery, [], .new name, none⟩

def published (r : Receiver σ) : List Snapshot :=
  r.history.filterMap fun
    | .published s => some s
    | .alerted _ => none

def alerts (r : Receiver σ) : List AlertKind :=
  r.history.filterMap fun
    | .published _ => none
    | .alerted k => some k

def bus (r : Receiver σ) : Broadcast.Bus Snapshot :=
  { (default : Broadcast.Bus Snapshot) with sent := r.published }

def onStore {α : Type} (work : Access σ α) : Access (Receiver σ) α :=
  Store.writing fun r =>
    let (result, store) := work.on r.store
    (result, { r with store })

def ofStore {α : Type} (read : σ → Except Failure α) : Access (Receiver σ) α :=
  Store.reading fun r => read r.store

def note (n : Notice) (r : Receiver σ) : Receiver σ :=
  { r with history := r.history ++ [n] }

def alert (kind : AlertKind) (r : Receiver σ) : Receiver σ :=
  r.note (.alerted kind)

def submit (job : Job) (r : Receiver σ) : Receiver σ :=
  { r with worker := r.worker.submit job }

variable [KeyValueStore σ]

def publish (r : Receiver σ) : Receiver σ :=
  match Store.Values.snapshot r.store with
  | .ok s => r.note (.published s)
  | .error _ => r

end Receiver

end PushKeeper
