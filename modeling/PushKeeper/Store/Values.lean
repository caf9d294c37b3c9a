import PushKeeper.Store.Access
import PushKeeper.Registration.Snapshot
import PushKeeper.Text.Numeral

namespace PushKeeper.Store.Values

open Registration (Endpoint Snapshot Status)

def endpointKey : String := "relaypush.endpoint"

def statusKey : String := "relaypush.status"

def lastFetchKey : String := "relaypush.last_foreground_fetch_ms"

def ordinalBound : Nat := Nat.pow 2 8

def timeBound : Nat := Nat.pow 2 64

def statusOf (raw : Option String) : Status :=
  match raw.bind (Text.Numeral.parse? ordinalBound) with
  | some n => .ofOrdinal n
  | none => .initial

theorem statusOf_render (status : Status) :
    statusOf (some (Text.Numeral.render status.ordinal)) = status := by
  cases status <;> decide +kernel

def timeOf (raw : Option String) : Nat :=
  (raw.bind (Text.Numeral.parse? timeBound)).getD 0

variable {σ : Type} [KeyValueStore σ]

def endpoint (s : σ) : Except Failure (Option Endpoint) := do
  return (← KeyValueStore.get endpointKey s).map Endpoint.mk

def status (s : σ) : Except Failure Status := do
  return statusOf (← KeyValueStore.get statusKey s)

def lastFetch (s : σ) : Except Failure Nat := do
  return timeOf (← KeyValueStore.get lastFetchKey s)

def snapshot (s : σ) : Except Failure Snapshot := do
  return ⟨← endpoint s, ← status s⟩

def setStatus (status : Status) : Access σ Unit :=
  writing (KeyValueStore.put statusKey (Text.Numeral.render status.ordinal))

def replaceEndpoint (new : Endpoint) : Access σ Bool := do
  if (← reading endpoint) = some new then return false
  writing (KeyValueStore.put endpointKey new.address)
  return true

def clearEndpoint : Access σ Unit :=
  writing (KeyValueStore.remove endpointKey)

/-- Stores the outcome of a relay call unless air-gapped; tells whether it was stored. -/
def recordOutcome (outcome : Status) : Access σ Bool := do
  if (← reading status) = .airGapped then return false
  setStatus outcome
  return true

def switchAirGapped (enabled : Bool) : Access σ Bool := do
  if decide ((← reading status) = .airGapped) = enabled then return false
  setStatus (if enabled then .airGapped else .unconfigured)
  return true

def setLastFetch (time : Nat) : Access σ Unit :=
  writing (KeyValueStore.put lastFetchKey (Text.Numeral.render time))

end PushKeeper.Store.Values
