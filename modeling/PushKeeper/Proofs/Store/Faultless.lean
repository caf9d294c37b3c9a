import PushKeeper.Store.Values

namespace PushKeeper.Store

open Registration (Endpoint Snapshot Status)

/-- A store that refuses nothing and behaves as the entries it shows. -/
class Faultless (σ : Type) [KeyValueStore σ] where
  entries : σ → Entries
  get_eq (key : String) (s : σ) : KeyValueStore.get key s = .ok ((entries s).get? key)
  put_ok (key value : String) (s : σ) : (KeyValueStore.put key value s).1 = .ok ()
  entries_put (key value : String) (s : σ) :
    entries (KeyValueStore.put key value s).2 = (entries s).insert key value
  remove_ok (key : String) (s : σ) : (KeyValueStore.remove key s).1 = .ok ()
  entries_remove (key : String) (s : σ) :
    entries (KeyValueStore.remove key s).2 = (entries s).erase key

instance : Faultless Entries where
  entries e := e
  get_eq _ _ := rfl
  put_ok _ _ _ := rfl
  entries_put _ _ _ := rfl
  remove_ok _ _ := rfl
  entries_remove _ _ := rfl

namespace Values

variable {σ : Type} [KeyValueStore σ] [Faultless σ]

def storedEndpoint (s : σ) : Option Endpoint :=
  ((Faultless.entries s).get? endpointKey).map Endpoint.mk

def storedStatus (s : σ) : Status :=
  statusOf ((Faultless.entries s).get? statusKey)

def putEndpoint (e : Endpoint) (s : σ) : σ := (KeyValueStore.put endpointKey e.address s).2

def removeEndpoint (s : σ) : σ := (KeyValueStore.remove endpointKey s).2

def putStatus (status : Status) (s : σ) : σ :=
  (KeyValueStore.put statusKey (Text.Numeral.render status.ordinal) s).2

def putLastFetch (time : Nat) (s : σ) : σ :=
  (KeyValueStore.put lastFetchKey (Text.Numeral.render time) s).2

section

variable (s : σ)

@[simp] theorem storedEndpoint_putEndpoint (e : Endpoint) :
    storedEndpoint (putEndpoint e s) = some e := by
  simp [storedEndpoint, putEndpoint, Faultless.entries_put]

@[simp] theorem storedStatus_putEndpoint (e : Endpoint) :
    storedStatus (putEndpoint e s) = storedStatus s := by
  simp [storedStatus, putEndpoint, Faultless.entries_put, statusKey, endpointKey]

@[simp] theorem storedEndpoint_removeEndpoint : storedEndpoint (removeEndpoint s) = none := by
  simp [storedEndpoint, removeEndpoint, Faultless.entries_remove]

@[simp] theorem storedStatus_removeEndpoint :
    storedStatus (removeEndpoint s) = storedStatus s := by
  simp [storedStatus, removeEndpoint, Faultless.entries_remove, statusKey, endpointKey]

@[simp] theorem storedEndpoint_putStatus (status : Status) :
    storedEndpoint (putStatus status s) = storedEndpoint s := by
  simp [storedEndpoint, putStatus, Faultless.entries_put, statusKey, endpointKey]

@[simp] theorem storedStatus_putStatus (status : Status) :
    storedStatus (putStatus status s) = status := by
  simp [storedStatus, putStatus, Faultless.entries_put, statusOf_render]

@[simp] theorem storedEndpoint_putLastFetch (time : Nat) :
    storedEndpoint (putLastFetch time s) = storedEndpoint s := by
  simp [storedEndpoint, putLastFetch, Faultless.entries_put, lastFetchKey, endpointKey]

@[simp] theorem storedStatus_putLastFetch (time : Nat) :
    storedStatus (putLastFetch time s) = storedStatus s := by
  simp [storedStatus, putLastFetch, Faultless.entries_put, statusKey, lastFetchKey]

@[simp] theorem endpoint_eq : endpoint s = .ok (storedEndpoint s) := by
  simp only [endpoint, Faultless.get_eq]; rfl

@[simp] theorem status_eq : status s = .ok (storedStatus s) := by
  simp only [status, Faultless.get_eq]; rfl

@[simp] theorem snapshot_eq : snapshot s = .ok ⟨storedEndpoint s, storedStatus s⟩ := by
  simp only [snapshot, endpoint_eq, status_eq]; rfl

@[simp] theorem on_clearEndpoint :
    (clearEndpoint : Access σ Unit).on s = (.ok (), removeEndpoint s) :=
  Prod.ext (Faultless.remove_ok _ _) rfl

@[simp] theorem on_setStatus (new : Status) : (setStatus new).on s = (.ok (), putStatus new s) :=
  Prod.ext (Faultless.put_ok _ _ _) rfl

@[simp] theorem on_setLastFetch (time : Nat) :
    (setLastFetch time).on s = (.ok (), putLastFetch time s) :=
  Prod.ext (Faultless.put_ok _ _ _) rfl

theorem on_replaceEndpoint (e : Endpoint) :
    (replaceEndpoint e).on s =
      if storedEndpoint s = some e then (.ok false, s) else (.ok true, putEndpoint e s) := by
  have hp : (writing (KeyValueStore.put endpointKey e.address)).on s =
      (.ok (), putEndpoint e s) := Prod.ext (Faultless.put_ok _ _ _) rfl
  rw [replaceEndpoint, on_bind, on_reading, endpoint_eq]
  by_cases h : storedEndpoint s = some e
  · simp [h]
  · simp [h, on_map, hp]

theorem on_recordOutcome (outcome : Status) :
    (recordOutcome outcome).on s =
      if storedStatus s = .airGapped then (.ok false, s) else (.ok true, putStatus outcome s) := by
  rw [recordOutcome, on_bind, on_reading, status_eq]
  by_cases h : storedStatus s = .airGapped
  · simp [h]
  · simp [h, on_map]

theorem on_switchAirGapped (enabled : Bool) :
    (switchAirGapped enabled).on s =
      if decide (storedStatus s = .airGapped) = enabled then (.ok false, s)
      else (.ok true, putStatus (if enabled then .airGapped else .unconfigured) s) := by
  rw [switchAirGapped, on_bind, on_reading, status_eq]
  by_cases h : decide (storedStatus s = .airGapped) = enabled
  · simp [h]
  · simp [h, on_map]

end

end Values

end PushKeeper.Store
