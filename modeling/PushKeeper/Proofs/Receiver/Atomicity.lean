import PushKeeper.Proofs.Receiver.Faults

namespace PushKeeper.Receiver

open Registration (Endpoint Status)
open Store (Access Attempt Honest KeyValueStore on_bind)
open Store.Values

/-- A request about the registration that can fail. -/
inductive Operation
  | newEndpoint (e : Endpoint)
  | unregistered
  | airGapped (enabled : Bool)

variable {σ : Type} [KeyValueStore σ]

def Operation.run : Operation → Access (Receiver σ) Unit
  | newEndpoint e => Receiver.newEndpoint e
  | unregistered => Receiver.unregistered
  | airGapped enabled => setAirGapped enabled

/-- The store lets the user out of air-gapped mode and then does not tell the endpoint. -/
def LeftBlind (op : Operation) (r : Receiver σ) : Prop :=
  op = .airGapped false ∧ ∃ s cause,
    (switchAirGapped false).on r.store = (.ok true, s) ∧ Store.Values.endpoint s = .error cause

theorem publish_of_blind {r : Receiver σ} {cause : Failure}
    (h : Store.Values.endpoint r.store = .error cause) : r.publish = r := by
  have hs : Store.Values.snapshot r.store = .error cause := by
    rw [Store.Values.snapshot, h]
    rfl
  rw [publish, hs]

theorem on_setAirGapped_of_blind {r : Receiver σ} {s : σ} {cause : Failure}
    (h : (switchAirGapped false).on r.store = (.ok true, s))
    (he : Store.Values.endpoint s = .error cause) :
    (setAirGapped false).on r = (.error cause, { r with store := s }) := by
  have hp : ({ r with store := s } : Receiver σ).publish = { r with store := s } :=
    publish_of_blind he
  simp [setAirGapped, on_bind, on_onStore, h, hp, he]

variable [Honest σ] {r r' : Receiver σ} {op : Operation} {cause : Failure}

structure Untouched (r r' : Receiver σ) : Prop where
  eq_store : r' = { r with store := r'.store }
  entries_eq : r'.entries = r.entries

namespace Untouched

theorem refl (r : Receiver σ) : Untouched r r := ⟨rfl, rfl⟩

theorem store {s : σ} (h : Honest.entries s = r.entries) : Untouched r { r with store := s } :=
  ⟨rfl, h⟩

theorem newEndpoint {e : Endpoint} (h : ((newEndpoint e).on r).1 = .error cause) :
    Untouched r ((newEndpoint e).on r).2 := by
  rw [Receiver.newEndpoint, on_bind, on_ofStore] at h ⊢
  cases hs : Store.Values.status r.store with
  | error cause => exact refl r
  | ok before =>
    simp only [hs, on_bind, on_onStore] at h ⊢
    have ha := attempt_replaceEndpoint r.store e
    generalize (replaceEndpoint e).on r.store = result at ha h ⊢
    cases ha with
    | failed hs => exact store hs
    | skipped hn => simp at h
    | made hn hs => simp at h

theorem unregistered (h : ((unregistered : Access (Receiver σ) Unit).on r).1 = .error cause) :
    Untouched r (Receiver.unregistered.on r).2 := by
  rw [Receiver.unregistered, on_bind, on_onStore, clearEndpoint, Store.on_writing] at h ⊢
  cases hr : KeyValueStore.remove endpointKey r.store with
  | mk result s =>
    cases result with
    | error cause =>
      have hs := Honest.remove_error (congrArg Prod.fst hr)
      exact store (by simpa [hr, entries] using hs)
    | ok u => simp [hr] at h

theorem setAirGapped {enabled : Bool} (h : ((setAirGapped enabled).on r).1 = .error cause)
    (hb : ¬ LeftBlind (.airGapped enabled) r) : Untouched r ((setAirGapped enabled).on r).2 := by
  rw [Receiver.setAirGapped, on_bind, on_onStore] at h ⊢
  have ha := attempt_switchAirGapped r.store enabled
  generalize hr : (switchAirGapped enabled).on r.store = result at ha h ⊢
  cases ha with
  | failed hs => exact store hs
  | skipped hn => simp at h
  | @made s hn hs =>
    cases enabled with
    | true => simp at h
    | false =>
      cases he : Store.Values.endpoint s with
      | error cause => exact absurd ⟨rfl, s, cause, hr, he⟩ hb
      | ok x => cases x <;> simp [on_bind, he] at h

end Untouched

structure Stranded (r r' : Receiver σ) : Prop where
  eq_store : r' = { r with store := r'.store }
  status_eq : r.entries.status = .airGapped
  entries_eq : r'.entries =
    r.entries.insert statusKey (Text.Numeral.render Status.unconfigured.ordinal)
  again {s : σ} {status : Status} (hs : Honest.entries s = r'.entries)
    (h : Store.Values.status s = .ok status) :
    (setAirGapped false).on { r' with store := s } = (.ok (), { r' with store := s })

theorem Stranded.status_eq_unconfigured (h : Stranded r r') : r'.entries.status = .unconfigured := by
  rw [h.entries_eq]
  exact Store.Entries.status_insert_status _ _

theorem stranded_of_leftBlind (h : LeftBlind op r) : Stranded r (op.run.on r).2 := by
  obtain ⟨rfl, s, cause, hr, he⟩ := h
  have ha := attempt_switchAirGapped r.store false
  rw [hr] at ha
  obtain ⟨hmode, hentries⟩ : r.entries.status = .airGapped ∧ Honest.entries s =
      r.entries.insert statusKey (Text.Numeral.render Status.unconfigured.ordinal) := by
    cases ha with
    | made hn hs => exact ⟨by simpa [entries] using hn, hs⟩
  rw [Operation.run, on_setAirGapped_of_blind hr he]
  refine ⟨rfl, hmode, hentries, fun {s'} {status} hs' hstatus => ?_⟩
  have hleft : status = .unconfigured := by
    rw [status_ok hstatus, hs']
    show (Honest.entries s).status = _
    rw [hentries]
    exact Store.Entries.status_insert_status _ _
  simp [setAirGapped, on_bind, on_onStore, switchAirGapped, hstatus, hleft]

theorem untouched_or_leftBlind (h : (op.run.on r).1 = .error cause) :
    Untouched r (op.run.on r).2 ∨ LeftBlind op r := by
  by_cases hb : LeftBlind op r
  · exact .inr hb
  · left
    cases op with
    | newEndpoint e => exact .newEndpoint h
    | unregistered => exact .unregistered h
    | airGapped enabled => exact .setAirGapped h hb

/-- A request that fails has published nothing, alerted nobody and queued nothing, and what is stored is
what was stored before, if and only if the mode was not left blind. Where it was, the receiver is stranded. -/
theorem unchanged_iff_not_leftBlind (op : Operation) (r : Receiver σ) (cause : Failure)
    (h : (op.run.on r).1 = .error cause) :
    let r' := (op.run.on r).2
    r' = { r with store := r'.store } ∧ (r'.entries = r.entries ↔ ¬ LeftBlind op r) ∧
      (LeftBlind op r → Stranded r r') := by
  refine ⟨?_, ⟨fun hsame hb => ?_, fun hb => ?_⟩, stranded_of_leftBlind⟩
  · obtain hu | hb := untouched_or_leftBlind h
    · exact hu.eq_store
    · exact (stranded_of_leftBlind hb).eq_store
  · have hs := stranded_of_leftBlind hb
    have hmode := hs.status_eq_unconfigured
    simp [hsame, hs.status_eq] at hmode
  · exact ((untouched_or_leftBlind h).resolve_right hb).entries_eq

/-- An endpoint comes while the relay is called, and the store refuses it. -/
theorem unchanged_of_refused_endpoint :
    let stored := Store.Entries.ofList [(endpointKey, "A"), (statusKey, "2")]
    let r := (new "registration" (⟨stored, [(.put, endpointKey)]⟩ : Store.FaultyStore) 0 default
      (.fixed true)).after [.retry, .work, .work, .work]
    let r' := ((Operation.newEndpoint ⟨"B"⟩).run.on r).2
    r.inFlight = some (.registering (some ⟨"A"⟩) false) ∧ r'.entries = stored ∧
      r' = { r with store := r'.store } := by
  intro stored r r'
  have hf : r.inFlight = some (.registering (some ⟨"A"⟩) false) := by decide +kernel
  have hs : r.entries = stored := by decide +kernel
  have h : ((Operation.newEndpoint ⟨"B"⟩).run.on r).1 =
      .error (.store (.refused .put endpointKey)) := by decide +kernel
  obtain ⟨hstore, hiff, -⟩ := unchanged_iff_not_leftBlind _ r _ h
  exact ⟨hf, (hiff.2 fun hb => by simpa using hb.1).trans hs, hstore⟩

/-- The store does not tell the endpoint when the user leaves air-gapped mode. The switch fails, and it
has been made: nothing is published and nothing queued, nor is it when the user asks again. -/
theorem changed_by_failed_switch :
    let stored := Store.Entries.ofList [(endpointKey, "A"), (statusKey, "1")]
    let r := new "registration" (⟨stored, [(.get, endpointKey)]⟩ : Store.FaultyStore) 0 default
      (.fixed true)
    let r' := ((setAirGapped false).on r).2
    let r'' : Receiver Store.FaultyStore := { r' with store := ⟨r'.entries, []⟩ }
    ((setAirGapped false).on r).1 = .error (.store (.refused .get endpointKey)) ∧
      r.entries.status = .airGapped ∧ r'.entries.status = .unconfigured ∧ r'.history = [] ∧
      r'.worker.pending = none ∧ ((setAirGapped false).on r'').1 = .ok () ∧
      ((setAirGapped false).on r'').2.history = [] ∧
      ((setAirGapped false).on r'').2.worker.pending = none := by
  decide +kernel

end PushKeeper.Receiver
