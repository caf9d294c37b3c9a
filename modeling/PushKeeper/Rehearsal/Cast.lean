import PushKeeper.Receiver.Intake
import PushKeeper.Receiver.Work

namespace PushKeeper.Rehearsal

open Receiver (Call Reply)
open Registration (Endpoint Status)

structure Relay where
  script : List Status
  fallback : Status
  calls : List (Option Endpoint)

def Relay.always (s : Status) : Relay := ⟨[], s, []⟩

def Relay.scripted (script : List Status) : Relay := ⟨script, .registered, []⟩

def Relay.register (endpoint : Option Endpoint) (r : Relay) : Status × Relay :=
  (r.script.headD r.fallback,
    { r with script := r.script.tail, calls := r.calls ++ [endpoint] })

inductive Response
  | accept
  | reject
  | fail
  deriving DecidableEq

structure FetchService where
  response : Response
  pullFails : Bool
  enqueued : List Fetch.Strategy
  pulls : Nat

namespace FetchService

def new (response : Response) (pullFails : Bool) : FetchService := ⟨response, pullFails, [], 0⟩

def enqueue (strategy : Fetch.Strategy) (f : FetchService) : Except Failure Bool × FetchService :=
  (match f.response with
    | .accept => .ok true
    | .reject => .ok false
    | .fail => .error (.hook (.other "fetch service unavailable")),
    { f with enqueued := f.enqueued ++ [strategy] })

def pull (f : FetchService) : Except Failure Unit × FetchService :=
  (if f.pullFails then .error (.hook (.other "legacy pull timed out")) else .ok (),
    { f with pulls := f.pulls + 1 })

end FetchService

structure Cast where
  relay : Relay
  service : FetchService
  gateOpen : Bool

namespace Cast

def reply (call : Call) (c : Cast) : Reply × Cast :=
  match call with
  | .register endpoint =>
    let (outcome, relay) := c.relay.register endpoint
    (.registered outcome, { c with relay })
  | .enqueue strategy =>
    let (answer, service) := c.service.enqueue strategy
    (.enqueued answer, { c with service })
  | .legacyPull =>
    let (answer, service) := c.service.pull
    (.pulled answer, { c with service })

def respond {σ : Type} : Receiver.Respond σ Cast := fun call store c =>
  if c.gateOpen then
    let (reply, c) := c.reply call
    some (reply, store, c)
  else none

end Cast

end PushKeeper.Rehearsal
