import PushKeeper.Proofs.Receiver.Run
import PushKeeper.Proofs.Store.Operations

namespace PushKeeper.Receiver

open Registration (AlertKind Endpoint Status)
open Store (Access Attempt Entries Honest KeyValueStore on_bind on_map)
open Store.Values

/-- An act, a change of what the store refuses, or the end of the receiver. -/
inductive Happening (σ : Type)
  | act (a : Act)
  | refusals (s : σ)
  | drop

variable {σ : Type}

section

variable (r : Receiver σ)

@[simp] theorem store_alert (kind : AlertKind) : (r.alert kind).store = r.store := rfl

@[simp] theorem store_submit (job : Job) : (r.submit job).store = r.store := rfl

theorem store_perform (part : Access (Receiver σ) (Option InFlight)) :
    (r.perform part).store = (part.on r).2.store := by
  unfold perform
  split <;> simp [*]

variable [KeyValueStore σ]

@[simp] theorem store_publish : r.publish.store = r.store := by
  unfold publish; split <;> rfl

@[simp] theorem store_followUp (before : Status) : (followUp before r).store = r.store := by
  cases before <;> simp [followUp]

end

variable [KeyValueStore σ] [Honest σ]

def entries (r : Receiver σ) : Entries := Honest.entries r.store

def happen : Happening σ → Receiver σ → Receiver σ
  | .act a, r => act a r
  | .refusals s, r => if Honest.entries s = r.entries then { r with store := s } else r
  | .drop, r => r.drop

def afterAll (r : Receiver σ) (hs : List (Happening σ)) : Receiver σ :=
  Run.after happen r hs

inductive Written (r : Receiver σ) : Act → Entries → Prop
  | nothing {a} : Written r a r.entries
  | endpoint {e i} (h : r.entries.endpoint ≠ some e) :
      Written r (.handle (.newEndpoint e i)) (r.entries.insert endpointKey e.address)
  | noEndpoint {i} : Written r (.handle (.unregistered i)) (r.entries.erase endpointKey)
  | mode {enabled} (h : decide (r.entries.status = .airGapped) ≠ enabled) :
      Written r (.airGapped enabled) (r.entries.insert statusKey
        (Text.Numeral.render (if enabled then Status.airGapped else .unconfigured).ordinal))
  | missed (h : r.worker.current? = some .retry) (hs : r.entries.status ≠ .airGapped)
      (he : r.entries.endpoint = none) (hf : r.inFlight = none) :
      Written r .work
        (r.entries.insert statusKey (Text.Numeral.render Status.missingEndpoint.ordinal))
  | outcome {x alerting outcome} (hf : r.inFlight = some (.registering x alerting))
      (hs : r.entries.status ≠ .airGapped) :
      Written r (.answer (.registered outcome))
        (r.entries.insert statusKey (Text.Numeral.render outcome.ordinal))
  | stamp (h : r.worker.current? = some .fetch) (hs : r.nextStrategy.isForeground)
      (hf : r.inFlight = none) :
      Written r .work (r.entries.insert lastFetchKey (Text.Numeral.render r.clock.toNat))

theorem Written.of_eq {r : Receiver σ} {a : Act} {e e' : Entries} (h : Written r a e)
    (he : e' = e) : Written r a e' :=
  he ▸ h

theorem entries_eq {r r' : Receiver σ} (h : r'.store = r.store) : r'.entries = r.entries :=
  congrArg Honest.entries h

section

variable (r : Receiver σ)

theorem written_newEndpoint (e : Endpoint) (i : String) :
    Written r (.handle (.newEndpoint e i)) ((newEndpoint e).on r).2.entries := by
  rw [newEndpoint, on_bind, on_ofStore]
  cases hs : Store.Values.status r.store with
  | error cause => exact .nothing
  | ok before =>
    simp only [on_bind, on_onStore]
    have ha := attempt_replaceEndpoint r.store e
    generalize (replaceEndpoint e).on r.store = result at ha ⊢
    cases ha with
    | failed h => exact .of_eq .nothing h
    | skipped h => exact .nothing
    | made h hs => exact .of_eq (.endpoint h) (by simpa [entries] using hs)

theorem written_unregistered (i : String) :
    Written r (.handle (.unregistered i)) (unregistered.on r).2.entries := by
  rw [unregistered, on_bind, on_onStore, clearEndpoint, Store.on_writing]
  cases hr : KeyValueStore.remove endpointKey r.store with
  | mk result s =>
    cases result with
    | error cause =>
      have h := Honest.remove_error (congrArg Prod.fst hr)
      exact .of_eq .nothing (by simpa [hr, entries] using h)
    | ok u =>
      have h := Honest.remove_ok (congrArg Prod.fst hr)
      exact .of_eq .noEndpoint (by simpa [hr, entries] using h)

omit [Honest σ] in
theorem store_setAirGapped (enabled : Bool) :
    ((setAirGapped enabled).on r).2.store = ((switchAirGapped enabled).on r.store).2 := by
  rw [setAirGapped, on_bind, on_onStore]
  rcases (switchAirGapped enabled).on r.store with ⟨_ | _ | _, s⟩
  · rfl
  · rfl
  · cases enabled with
    | true => simp
    | false =>
      cases he : Store.Values.endpoint s with
      | error cause => simp [on_bind, he]
      | ok x => cases x <;> simp [on_bind, he]

theorem written_setAirGapped (enabled : Bool) :
    Written r (.airGapped enabled) ((setAirGapped enabled).on r).2.entries := by
  rw [entries, store_setAirGapped]
  have ha := attempt_switchAirGapped r.store enabled
  generalize (switchAirGapped enabled).on r.store = result at ha ⊢
  cases ha with
  | failed h => exact .of_eq .nothing h
  | skipped h => exact .nothing
  | made h hs => exact .of_eq (.mode h) hs

theorem entries_endRegistration (alerting : Bool) (outcome : Status) :
    ((endRegistration alerting outcome).on r).2.entries = r.entries ∨
      r.entries.status ≠ .airGapped ∧ ((endRegistration alerting outcome).on r).2.entries =
        r.entries.insert statusKey (Text.Numeral.render outcome.ordinal) := by
  rw [endRegistration, on_bind, on_onStore]
  have ha := attempt_recordOutcome r.store outcome
  generalize (recordOutcome outcome).on r.store = result at ha ⊢
  cases ha with
  | failed h => exact .inl h
  | skipped h => exact .inl rfl
  | made h hs =>
    refine .inr ⟨h, hs ▸ congrArg Honest.entries ?_⟩
    by_cases ht : (alerting && outcome != .registered) = true <;> simp [on_bind, on_map, ht]

omit [Honest σ] in
theorem on_startRegistration_snd (alerting : Bool) :
    ((startRegistration alerting).on r).2 = r := by
  rw [startRegistration, on_bind, on_ofStore]
  cases Store.Values.endpoint r.store <;> rfl

theorem written_startRetry (h : r.worker.current? = some .retry) (hf : r.inFlight = none) :
    Written r .work (startRetry.on r).2.entries := by
  rw [startRetry, on_bind, on_ofStore]
  cases hs : Store.Values.status r.store with
  | error cause => exact .nothing
  | ok status =>
    by_cases ha : status = .airGapped
    · simpa [ha] using .nothing
    · simp only [ha, if_false, on_bind, on_ofStore]
      cases he : Store.Values.endpoint r.store with
      | error cause => exact .nothing
      | ok x =>
        cases x with
        | some e =>
          simp only [Option.isNone_some, Bool.false_eq_true, if_false, on_startRegistration_snd]
          exact .nothing
        | none =>
          -- the status is looked at once more where this outcome is stored
          obtain hn | ⟨hne, hm⟩ := r.entries_endRegistration false .missingEndpoint
          · exact .of_eq .nothing hn
          · exact .of_eq (.missed h hne (endpoint_ok he).symm hf) hm

theorem written_stamped (h : r.worker.current? = some .fetch) (hf : r.inFlight = none) :
    Written r .work r.stamped.entries := by
  unfold stamped Fetch.Progress.stamp
  split
  case isFalse => exact .nothing
  case isTrue hs =>
    obtain hn | hp :=
      Honest.entries_put lastFetchKey (Text.Numeral.render r.clock.toNat) r.store
    · exact .of_eq .nothing hn
    · exact .of_eq (.stamp h hs hf) hp

theorem written_work : Written r .work r.advance.entries := by
  unfold advance
  cases hc : r.worker.current? with
  | none => exact .nothing
  | some job =>
    cases hf : r.inFlight with
    | some task => exact .nothing
    | none =>
      refine .of_eq ?_ (entries_eq (r.store_perform _))
      cases job with
      | register alerting => exact .of_eq .nothing (by rw [Job.start, on_startRegistration_snd])
      | retry => exact written_startRetry r hc hf
      | fetch => exact written_stamped r hc hf

theorem written_answer (reply : Reply) : Written r (.answer reply) (r.answer reply).entries := by
  unfold answer
  cases hf : r.inFlight with
  | none => exact .nothing
  | some task =>
    refine .of_eq ?_ (entries_eq (r.store_perform _))
    cases task with
    | registering x alerting =>
      cases reply with
      | registered outcome =>
        obtain hn | ⟨hne, hm⟩ := r.entries_endRegistration alerting outcome
        · exact .of_eq .nothing hn
        · exact .of_eq (.outcome hf hne) hm
      | _ => exact .nothing
    | _ => cases reply <;> exact .nothing

theorem written_handle (event : Feed.TransportEvent) :
    Written r (.handle event) (r.handle event).entries := by
  cases event with
  | newEndpoint e i => exact written_newEndpoint r e i
  | registrationFailed i => exact .nothing
  | unregistered i => exact written_unregistered r i
  | message p i =>
    cases h : r.delivery.isActive r.store with
    | true => exact .of_eq .nothing (by simp [handle, message, h, entries])
    | false => exact .of_eq .nothing (by simp [handle, message, h])

theorem written_act (a : Act) : Written r a (act a r).entries := by
  cases a with
  | handle event => exact written_handle r event
  | retry => exact .nothing
  | airGapped enabled => exact written_setAirGapped r enabled
  | work => exact written_work r
  | answer reply => exact written_answer r reply
  | clock time => exact .nothing
  | delivery d => exact .nothing

end

end PushKeeper.Receiver
