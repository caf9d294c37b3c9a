import PushKeeper.Receiver.Work
import PushKeeper.Proofs.Store.Faultless

namespace PushKeeper.Receiver

open Registration (AlertKind Endpoint Snapshot Status)
open Store (Faultless KeyValueStore)
open Store.Values

variable {σ : Type}

def done (r : Receiver σ) : Receiver σ :=
  { r with inFlight := none, worker := r.worker.finish .done }

def await (task : InFlight) (r : Receiver σ) : Receiver σ :=
  { r with inFlight := some task }

def tellFailure (alerting : Bool) (outcome : Status) (r : Receiver σ) : Receiver σ :=
  if alerting && outcome != .registered then r.alert .endpointChangedError else r

section

variable (r : Receiver σ)

@[simp] theorem worker_alert (k : AlertKind) :
    (r.alert k).worker = r.worker := rfl

@[simp] theorem inFlight_alert (k : AlertKind) :
    (r.alert k).inFlight = r.inFlight := rfl

@[simp] theorem worker_submit (job : Job) :
    (r.submit job).worker = r.worker.submit job := rfl

@[simp] theorem inFlight_submit (job : Job) :
    (r.submit job).inFlight = r.inFlight := rfl

@[simp] theorem worker_done : r.done.worker = r.worker.finish .done := rfl

@[simp] theorem inFlight_done : r.done.inFlight = none := rfl

@[simp] theorem worker_await (task : InFlight) : (r.await task).worker = r.worker := rfl

@[simp] theorem inFlight_await (task : InFlight) : (r.await task).inFlight = some task := rfl

@[simp] theorem worker_tellFailure (alerting : Bool) (outcome : Status) :
    (r.tellFailure alerting outcome).worker = r.worker := by
  unfold tellFailure; split <;> rfl

@[simp] theorem inFlight_tellFailure (alerting : Bool) (outcome : Status) :
    (r.tellFailure alerting outcome).inFlight = r.inFlight := by
  unfold tellFailure; split <;> rfl

@[simp] theorem published_note (s : Snapshot) :
    (r.note (.published s)).published = r.published ++ [s] := by
  simp [published, note]

@[simp] theorem published_alert (k : AlertKind) : (r.alert k).published = r.published := by
  simp [published, alert, note]

@[simp] theorem published_submit (job : Job) : (r.submit job).published = r.published := rfl

@[simp] theorem published_done : r.done.published = r.published := rfl

@[simp] theorem published_await (task : InFlight) : (r.await task).published = r.published := rfl

@[simp] theorem published_tellFailure (alerting : Bool) (outcome : Status) :
    (r.tellFailure alerting outcome).published = r.published := by
  unfold tellFailure; split <;> simp

@[simp] theorem history_alert (k : AlertKind) :
    (r.alert k).history = r.history ++ [.alerted k] := rfl

@[simp] theorem history_submit (job : Job) : (r.submit job).history = r.history := rfl

@[simp] theorem history_await (task : InFlight) : (r.await task).history = r.history := rfl

@[simp] theorem history_done : r.done.history = r.history := rfl

theorem history_tellFailure (alerting : Bool) (outcome : Status) :
    (r.tellFailure alerting outcome).history =
      r.history ++ if alerting && outcome != .registered then [.alerted .endpointChangedError] else [] := by
  unfold tellFailure
  split <;> simp

@[simp] theorem published_worker (w : Worker Job) :
    ({ r with worker := w } : Receiver σ).published = r.published := rfl

@[simp] theorem published_clock (t : UInt64) :
    ({ r with clock := t } : Receiver σ).published = r.published := rfl

@[simp] theorem published_delivery (d : Fetch.Delivery) :
    ({ r with delivery := d } : Receiver σ).published = r.published := rfl

end

@[simp] theorem on_ofStore {α : Type} (read : σ → Except Failure α) (r : Receiver σ) :
    (ofStore read).on r = (read r.store, r) := rfl

theorem on_onStore {α : Type} (work : Store.Access σ α) (r : Receiver σ) :
    (onStore work).on r = ((work.on r.store).1, { r with store := (work.on r.store).2 }) := rfl

variable [KeyValueStore σ]

def withEndpoint (e : Endpoint) (r : Receiver σ) : Receiver σ :=
  { r with store := putEndpoint e r.store }

def withoutEndpoint (r : Receiver σ) : Receiver σ :=
  { r with store := removeEndpoint r.store }

def withStatus (status : Status) (r : Receiver σ) : Receiver σ :=
  { r with store := putStatus status r.store }

def nextStrategy (r : Receiver σ) : Fetch.Strategy :=
  Fetch.Progress.strategyAt r.policy r.clock.toNat r.store

def stamped (r : Receiver σ) : Receiver σ :=
  { r with store := Fetch.Progress.stamp r.nextStrategy r.clock.toNat r.store }

section

variable (r : Receiver σ)

@[simp] theorem worker_withEndpoint (e : Endpoint) : (r.withEndpoint e).worker = r.worker := rfl

@[simp] theorem inFlight_withEndpoint (e : Endpoint) :
    (r.withEndpoint e).inFlight = r.inFlight := rfl

@[simp] theorem worker_withoutEndpoint : r.withoutEndpoint.worker = r.worker := rfl

@[simp] theorem inFlight_withoutEndpoint : r.withoutEndpoint.inFlight = r.inFlight := rfl

@[simp] theorem worker_withStatus (s : Status) : (r.withStatus s).worker = r.worker := rfl

@[simp] theorem inFlight_withStatus (s : Status) : (r.withStatus s).inFlight = r.inFlight := rfl

@[simp] theorem published_withEndpoint (e : Endpoint) :
    (r.withEndpoint e).published = r.published := rfl

@[simp] theorem published_withoutEndpoint : r.withoutEndpoint.published = r.published := rfl

@[simp] theorem published_withStatus (s : Status) :
    (r.withStatus s).published = r.published := rfl

@[simp] theorem history_withEndpoint (e : Endpoint) : (r.withEndpoint e).history = r.history := rfl

@[simp] theorem history_withoutEndpoint : r.withoutEndpoint.history = r.history := rfl

@[simp] theorem history_withStatus (s : Status) : (r.withStatus s).history = r.history := rfl

@[simp] theorem history_stamped : r.stamped.history = r.history := rfl

@[simp] theorem worker_stamped : r.stamped.worker = r.worker := rfl

@[simp] theorem worker_publish : r.publish.worker = r.worker := by
  unfold publish; split <;> rfl

@[simp] theorem inFlight_publish : r.publish.inFlight = r.inFlight := by
  unfold publish; split <;> rfl

end

variable [Faultless σ]

def endpoint (r : Receiver σ) : Option Endpoint := storedEndpoint r.store

def status (r : Receiver σ) : Status := storedStatus r.store

section

variable (r : Receiver σ)

@[simp] theorem endpoint_withEndpoint (e : Endpoint) : (r.withEndpoint e).endpoint = some e :=
  storedEndpoint_putEndpoint _ e

@[simp] theorem status_withEndpoint (e : Endpoint) : (r.withEndpoint e).status = r.status :=
  storedStatus_putEndpoint _ e

@[simp] theorem endpoint_withoutEndpoint : r.withoutEndpoint.endpoint = none :=
  storedEndpoint_removeEndpoint _

@[simp] theorem status_withoutEndpoint : r.withoutEndpoint.status = r.status :=
  storedStatus_removeEndpoint _

@[simp] theorem endpoint_withStatus (s : Status) : (r.withStatus s).endpoint = r.endpoint :=
  storedEndpoint_putStatus _ s

@[simp] theorem status_withStatus (s : Status) : (r.withStatus s).status = s :=
  storedStatus_putStatus _ s

@[simp] theorem endpoint_stamped : r.stamped.endpoint = r.endpoint := by
  simp only [stamped, endpoint, Fetch.Progress.stamp, on_setLastFetch]
  split <;> simp

@[simp] theorem status_stamped : r.stamped.status = r.status := by
  simp only [stamped, status, Fetch.Progress.stamp, on_setLastFetch]
  split <;> simp

theorem publish_eq : r.publish = r.note (.published ⟨r.endpoint, r.status⟩) := by
  simp [publish, endpoint, status]

@[simp] theorem endpoint_publish : r.publish.endpoint = r.endpoint := by rw [publish_eq]; rfl

@[simp] theorem status_publish : r.publish.status = r.status := by rw [publish_eq]; rfl

@[simp] theorem endpoint_alert (k : AlertKind) : (r.alert k).endpoint = r.endpoint := rfl

@[simp] theorem status_alert (k : AlertKind) : (r.alert k).status = r.status := rfl

@[simp] theorem endpoint_submit (job : Job) : (r.submit job).endpoint = r.endpoint := rfl

@[simp] theorem status_submit (job : Job) : (r.submit job).status = r.status := rfl

@[simp] theorem endpoint_done : r.done.endpoint = r.endpoint := rfl

@[simp] theorem status_done : r.done.status = r.status := rfl

@[simp] theorem endpoint_await (task : InFlight) : (r.await task).endpoint = r.endpoint := rfl

@[simp] theorem status_await (task : InFlight) : (r.await task).status = r.status := rfl

@[simp] theorem endpoint_tellFailure (alerting : Bool) (outcome : Status) :
    (r.tellFailure alerting outcome).endpoint = r.endpoint := by
  unfold tellFailure; split <;> rfl

@[simp] theorem status_tellFailure (alerting : Bool) (outcome : Status) :
    (r.tellFailure alerting outcome).status = r.status := by
  unfold tellFailure; split <;> rfl

@[simp] theorem published_publish :
    r.publish.published = r.published ++ [⟨r.endpoint, r.status⟩] := by
  rw [publish_eq, published_note]

@[simp] theorem history_publish :
    r.publish.history = r.history ++ [.published ⟨r.endpoint, r.status⟩] := by
  rw [publish_eq]
  rfl

@[simp] theorem endpoint_worker (w : Worker Job) :
    ({ r with worker := w } : Receiver σ).endpoint = r.endpoint := rfl

@[simp] theorem status_worker (w : Worker Job) :
    ({ r with worker := w } : Receiver σ).status = r.status := rfl

@[simp] theorem endpoint_clock (t : UInt64) :
    ({ r with clock := t } : Receiver σ).endpoint = r.endpoint := rfl

@[simp] theorem status_clock (t : UInt64) :
    ({ r with clock := t } : Receiver σ).status = r.status := rfl

@[simp] theorem endpoint_delivery (d : Fetch.Delivery) :
    ({ r with delivery := d } : Receiver σ).endpoint = r.endpoint := rfl

@[simp] theorem status_delivery (d : Fetch.Delivery) :
    ({ r with delivery := d } : Receiver σ).status = r.status := rfl

theorem on_newEndpoint (e : Endpoint) :
    (newEndpoint e).on r =
      (.ok (), if r.endpoint = some e then r else followUp r.status (r.withEndpoint e)) := by
  rw [newEndpoint, Store.on_bind, on_ofStore, status_eq]
  simp only [Store.on_bind, on_onStore, on_replaceEndpoint]
  by_cases h : storedEndpoint r.store = some e
  · simp [h, endpoint]
  · simp [h, endpoint, withEndpoint, status]

theorem on_unregistered : unregistered.on r = (.ok (), r.withoutEndpoint.publish) := by
  simp [unregistered, Store.on_bind, on_onStore, withoutEndpoint]

theorem on_setAirGapped (enabled : Bool) :
    (setAirGapped enabled).on r =
      (.ok (),
        if decide (r.status = .airGapped) = enabled then r
        else if enabled then (r.withStatus .airGapped).publish
        else if r.endpoint.isSome then
          (r.withStatus .unconfigured).publish.submit (.register false)
        else (r.withStatus .unconfigured).publish) := by
  rw [setAirGapped, Store.on_bind, on_onStore, on_switchAirGapped]
  by_cases h : decide (storedStatus r.store = .airGapped) = enabled
  · have h' : decide (r.status = .airGapped) = enabled := h
    rw [if_pos h, if_pos h']
    simp
  · cases enabled with
    | true => simp_all [status, withStatus]
    | false =>
      cases he : storedEndpoint r.store <;>
        simp_all [status, endpoint, withStatus, Store.on_bind, publish_eq, note]

theorem on_endRegistration (alerting : Bool) (outcome : Status) :
    (endRegistration alerting outcome).on r =
      (.ok none,
        if r.status = .airGapped then r
        else (r.withStatus outcome).publish.tellFailure alerting outcome) := by
  rw [endRegistration, Store.on_bind, on_onStore, on_recordOutcome]
  by_cases h : storedStatus r.store = .airGapped
  · simp [h, status]
  · by_cases ht : (alerting && outcome != .registered) = true
    · simp [h, ht, status, withStatus, tellFailure, Store.on_bind, Store.on_map]
    · simp [h, ht, status, withStatus, tellFailure, Store.on_map]

theorem on_startRegistration (alerting : Bool) :
    (startRegistration alerting).on r = (.ok (some (.registering r.endpoint alerting)), r) := by
  simp [startRegistration, Store.on_map, endpoint]

theorem on_startRetry :
    startRetry.on r =
      if r.status = .airGapped then (.ok none, r)
      else if r.endpoint.isNone then
        (.ok none, (r.withStatus .missingEndpoint).publish)
      else (.ok (some (.registering r.endpoint false)), r) := by
  rw [startRetry, Store.on_bind, on_ofStore, status_eq]
  by_cases h : storedStatus r.store = .airGapped
  · simp [h, status]
  · cases he : storedEndpoint r.store with
    | none => simp [h, he, status, endpoint, Store.on_bind, on_endRegistration, tellFailure]
    | some e => simp [h, he, status, endpoint, Store.on_bind, on_startRegistration]

end

end PushKeeper.Receiver
