import PushKeeper.Receiver.Registration

namespace PushKeeper.Receiver

open Registration (AlertKind Endpoint Status)
open Store (Access KeyValueStore)

inductive Call
  | register (endpoint : Option Endpoint)
  | enqueue (strategy : Fetch.Strategy)
  | legacyPull
  deriving DecidableEq

inductive Reply
  | registered (outcome : Status)
  | enqueued (answer : Except Failure Bool)
  | pulled (answer : Except Failure Unit)

def InFlight.call : InFlight → Call
  | registering endpoint _ => .register endpoint
  | enqueuing strategy => .enqueue strategy
  | pulling _ => .legacyPull

def InFlight.ofFetch? : Fetch.Progress → Option InFlight
  | .enqueuing strategy => some (.enqueuing strategy)
  | .pulling strategy => some (.pulling strategy)
  | .finished _ => none

variable {σ : Type} [KeyValueStore σ]

def startRegistration (alerting : Bool) : Access (Receiver σ) (Option InFlight) := do
  return some (.registering (← ofStore Store.Values.endpoint) alerting)

def endRegistration (alerting : Bool) (outcome : Status) :
    Access (Receiver σ) (Option InFlight) := do
  if ← onStore (Store.Values.recordOutcome outcome) then
    modify publish
    if alerting && outcome != .registered then modify (alert .endpointChangedError)
  return none

/-- The start of another attempt. Without an endpoint there is nothing to call the relay for. -/
def startRetry : Access (Receiver σ) (Option InFlight) := do
  if (← ofStore Store.Values.status) = .airGapped then return none
  if (← ofStore Store.Values.endpoint).isNone then
    endRegistration false .missingEndpoint
  else startRegistration false

def startFetch (r : Receiver σ) : Option InFlight × Receiver σ :=
  let (progress, store) := Fetch.Progress.start r.policy r.clock.toNat r.store
  (InFlight.ofFetch? progress, { r with store })

def Job.start : Job → Access (Receiver σ) (Option InFlight)
  | register alerting => startRegistration alerting
  | retry => startRetry
  | fetch => Store.writing fun r => let (wait, r) := r.startFetch; (.ok wait, r)

/-- The part of a task after an answer. A task is not moved by an answer to another call. -/
def InFlight.resume (task : InFlight) (reply : Reply) : Access (Receiver σ) (Option InFlight) :=
  match task, reply with
  | registering _ alerting, .registered outcome => endRegistration alerting outcome
  | enqueuing strategy, .enqueued answer =>
    pure (ofFetch? (.afterEnqueue strategy answer))
  | pulling strategy, .pulled answer => pure (ofFetch? (.afterPull strategy answer))
  | task, _ => pure (some task)

def perform (part : Access (Receiver σ) (Option InFlight)) (r : Receiver σ) : Receiver σ :=
  match part.on r with
  | (.ok (some task), r) => { r with inFlight := some task }
  | (.ok none, r) => { r with inFlight := none, worker := r.worker.finish .done }
  | (.error e, r) => { r with inFlight := none, worker := r.worker.finish (.failed e) }

/-- The next step of the worker; it has none while it waits for an answer. -/
def advance (r : Receiver σ) : Receiver σ :=
  match r.worker.current?, r.inFlight with
  | some job, none => r.perform job.start
  | some _, some _ => r
  | none, _ => { r with worker := r.worker.advance }

def answer (reply : Reply) (r : Receiver σ) : Receiver σ :=
  match r.inFlight with
  | some task => r.perform (task.resume reply)
  | none => r

def call? (r : Receiver σ) : Option Call :=
  r.inFlight.map InFlight.call

def isStill (r : Receiver σ) : Bool :=
  match r.worker.current?, r.inFlight with
  | some _, none => false
  | some _, some _ => true
  | none, _ => r.worker.isStill

abbrev Respond (σ ε : Type) := Call → σ → ε → Option (Reply × σ × ε)

def step {ε : Type} (respond : Respond σ ε) (r : Receiver σ) (env : ε) :
    Option (Receiver σ × ε) :=
  match r.call? with
  | some call =>
    (respond call r.store env).map fun (reply, store, env) =>
      ({ r with store }.answer reply, env)
  | none => if r.isStill then none else some (r.advance, env)

def settleWith {ε : Type} (respond : Respond σ ε) : Nat → Receiver σ → ε → Receiver σ × ε
  | 0, r, env => (r, env)
  | fuel + 1, r, env =>
    match r.step respond env with
    | some (r, env) => settleWith respond fuel r env
    | none => (r, env)

def settleBound : Nat := 16

def settle {ε : Type} (respond : Respond σ ε) (r : Receiver σ) (env : ε) : Receiver σ × ε :=
  settleWith respond settleBound r env

def drop (r : Receiver σ) : Receiver σ :=
  { r with worker := r.worker.close }

end PushKeeper.Receiver
