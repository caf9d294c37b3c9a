import PushKeeper.Receiver.Basic

namespace PushKeeper.Receiver

open Registration (AlertKind Endpoint Snapshot Status)
open Store (Access KeyValueStore)

variable {σ : Type} [KeyValueStore σ]

def followUp (before : Status) (r : Receiver σ) : Receiver σ :=
  match before with
  | .airGapped => r.publish.alert .endpointChangedAirGapped
  | .registered => r.submit (.register true)
  | .internalError => r.submit (.register false)
  | .missingEndpoint => r.submit (.register false)
  | .unconfigured => r.publish

/-- The transport gives an endpoint. One that is stored already is ignored. -/
def newEndpoint (e : Endpoint) : Access (Receiver σ) Unit := do
  let before ← ofStore Store.Values.status
  if ← onStore (Store.Values.replaceEndpoint e) then modify (followUp before)

def unregistered : Access (Receiver σ) Unit := do
  onStore Store.Values.clearEndpoint
  modify publish

def registrationFailed (r : Receiver σ) : Receiver σ :=
  r.alert .registrationFailed

def retry (r : Receiver σ) : Receiver σ :=
  r.submit .retry

/-- Switches the mode that keeps the relay out. Leaving it queues a registration if there is an
endpoint. -/
def setAirGapped (enabled : Bool) : Access (Receiver σ) Unit := do
  if ← onStore (Store.Values.switchAirGapped enabled) then
    modify publish
    if !enabled then
      if (← ofStore Store.Values.endpoint).isSome then modify (submit (.register false))

def snapshot (r : Receiver σ) : Except Failure Snapshot :=
  Store.Values.snapshot r.store

/-- A message came. A fetch is queued unless the transport is not the one that delivers; tells
whether it was. -/
def message (r : Receiver σ) : Bool × Receiver σ :=
  if r.delivery.isActive r.store then (true, r.submit .fetch) else (false, r)

def handle (event : Feed.TransportEvent) (r : Receiver σ) : Receiver σ :=
  match event with
  | .newEndpoint e _ => ((newEndpoint e).on r).2
  | .registrationFailed _ => r.registrationFailed
  | .unregistered _ => (unregistered.on r).2
  | .message .. => r.message.2

end PushKeeper.Receiver
