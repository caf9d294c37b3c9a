import PushKeeper.Proofs.Receiver.Run

namespace PushKeeper.Receiver

open Registration (Endpoint Status)
open Store (Faultless KeyValueStore)
open Store.Values

/-- A call of the relay whose outcome was stored. -/
structure Recording where
  endpoint : Option Endpoint
  outcome : Status
  deriving DecidableEq

def Act.isMessage : Act → Bool
  | .handle (.message ..) => true
  | _ => false

section

variable {σ : Type} [KeyValueStore σ]

def recording : Act → Receiver σ → List Recording
  | .answer (.registered outcome), r =>
    match r.inFlight, ((recordOutcome outcome).on r.store).1 with
    | some (.registering x _), .ok true => [⟨x, outcome⟩]
    | _, _ => []
  | _, _ => []

def recordings (r : Receiver σ) (acts : List Act) : List Recording :=
  Run.notes act recording r acts

variable (r : Receiver σ)

@[simp] theorem recordings_nil : r.recordings [] = [] := rfl

@[simp] theorem recordings_append (as bs : List Act) :
    r.recordings (as ++ bs) = r.recordings as ++ (r.after as).recordings bs := by
  simp [recordings, after]

@[simp] theorem recordings_singleton (a : Act) : r.recordings [a] = recording a r := by
  simp [recordings]

end

variable {σ : Type} [KeyValueStore σ] [Faultless σ] {r r' r₀ : Receiver σ} {a : Act}
  {acts : List Act} {e : Endpoint}

theorem recording_registering {x : Option Endpoint} {alerting : Bool} (outcome : Status)
    (hf : r.inFlight = some (.registering x alerting)) (hs : r.status ≠ .airGapped) :
    recording (.answer (.registered outcome)) r = [⟨x, outcome⟩] := by
  have hr : (recordOutcome outcome).on r.store = (.ok true, putStatus outcome r.store) := by
    rw [on_recordOutcome]
    exact if_neg hs
  simp [recording, hf, hr]

theorem Step.recording_eq (h : Step r a r') :
    recording a r = [] ∨ ∃ x alerting outcome,
      r.inFlight = some (.registering x alerting) ∧ r.status ≠ .airGapped ∧
      recording a r = [⟨x, outcome⟩] ∧
      r' = ((r.withStatus outcome).publish.tellFailure alerting outcome).done := by
  cases h with
  | @recorded x alerting outcome hf hs =>
    exact .inr ⟨x, alerting, outcome, hf, hs, recording_registering outcome hf hs, rfl⟩
  | @discarded x alerting outcome hf hs =>
    left
    have hr : (recordOutcome outcome).on r.store = (.ok false, r.store) := by
      rw [on_recordOutcome]
      exact if_pos hs
    simp [recording, hf, hr]
  | @uncalled reply hf => left; cases reply <;> simp [recording, hf]
  | @misfit task reply hf h =>
    left
    cases task <;> cases reply <;> simp_all [recording, InFlight.fits]
  | _ => exact .inl rfl

structure Registrar (r : Receiver σ) : Prop where
  steady : Steady r
  pending_ne : r.worker.pending ≠ some .fetch
  current_ne : r.worker.current? ≠ some .fetch
  inFlight_eq : ∀ task, r.inFlight = some task → ∃ x alerting, task = .registering x alerting

theorem Registrar.step (hr : Registrar r) (h : Step r a r') (ha : a.isMessage = false) :
    Registrar r' := by
  have hc := hr.steady.closed_eq
  obtain ⟨-, h2, h3, h4⟩ := id hr
  refine ⟨hr.steady.step h, ?_, ?_, ?_⟩
  · cases h with
    | accepted h => simp [Act.isMessage] at ha
    | moved h =>
      obtain ⟨-, hp⟩ | ⟨job, -, -, hw⟩ := Worker.advance_cases hc
      · rwa [← hp] at h2
      · simp [hw]
    | _ => simp_all [Worker.submit_pending]
  · cases h with
    | moved h =>
      obtain ⟨hw, -⟩ | ⟨job, -, hp, hw⟩ := Worker.advance_cases hc
      · rwa [← hw] at h3
      · rw [hp] at h2
        simpa [hw, Worker.current?] using h2
    | _ => simp_all
  · cases h with
    | registering h hf => exact fun task ht => ⟨_, _, (Option.some.inj ht).symm⟩
    | retrying h hf hs he => exact fun task ht => ⟨_, _, (Option.some.inj ht).symm⟩
    | _ => simp_all

omit [KeyValueStore σ] [Faultless σ] in
theorem registrar_new (name : String) (s : σ) (clock : UInt64) (policy : Fetch.Policy)
    (delivery : Fetch.Delivery) : Registrar (new name s clock policy delivery) := by
  constructor
  · exact steady_new name s clock policy delivery
  · simp [new, Worker.new]
  · simp [new, Worker.new, Worker.current?]
  · simp [new]

theorem Registrar.after (hr : Registrar r) (hm : ∀ a ∈ acts, a.isMessage = false) :
    Registrar (r.after acts) := by
  induction acts generalizing r with
  | nil => exact hr
  | cons a acts ih =>
    exact ih (hr.step (step_act r a) (hm a (by simp))) fun b hb => hm b (by simp [hb])

def Overtakes (e : Endpoint) (a : Act) (r : Receiver σ) : Prop :=
  (∃ i, a = .handle (.newEndpoint e i)) ∧ r.endpoint ≠ some e ∧ r.status = .unconfigured ∧
    ∃ x alerting, r.inFlight = some (.registering x alerting) ∧ x ≠ some e

/-- The endpoint came in the middle of a call for another one, and nothing has waited since. -/
def Overtaken (r₀ : Receiver σ) (acts : List Act) (e : Endpoint) : Prop :=
  Run.Since act r₀ (Overtakes e) (fun r => r.worker.pending = none) acts

structure Unheard (r : Receiver σ) (e : Endpoint) : Prop where
  inFlight_eq : ∃ x alerting, r.inFlight = some (.registering x alerting) ∧ x ≠ some e
  pending_eq : r.worker.pending = none
  endpoint_eq : r.endpoint = some e
  status_ne : r.status ≠ .airGapped

structure Untrue (r : Receiver σ) (j : List Recording) (e : Endpoint) : Prop where
  current_eq : r.worker.current? = none
  pending_eq : r.worker.pending = none
  endpoint_eq : r.endpoint = some e
  status_eq : r.status = .registered
  last_ne : j.getLast? ≠ some ⟨some e, .registered⟩

theorem Unheard.of_step (hr : Registrar r) (h : Step r a r') (hu : Unheard r' e) :
    Unheard r e ∨ Overtakes e a r := by
  obtain ⟨⟨x, alerting, hf, hx⟩, hp, he, hs⟩ := hu
  have hc := hr.steady.closed_eq
  cases h with
  | told h hs' =>
    right
    obtain rfl : _ = e := by simpa using he
    exact ⟨⟨_, rfl⟩, h, hs', x, alerting, by simpa using hf, hx⟩
  | sameEndpoint | registrationFailed | ignored | sameMode | waited | uncalled | misfit | clock
  | delivery => exact .inl ⟨⟨x, alerting, hf, hx⟩, hp, he, hs⟩
  | moved h =>
    -- a call is open only while a task is at work
    have hw := hr.steady.current_of_inFlight
    simp_all
  | _ => simp_all [Worker.submit_pending]

theorem Untrue.of_step {j : List Recording} (hr : Registrar r) (h : Step r a r')
    (hu : Untrue r' (j ++ recording a r) e) : Untrue r j e ∨ Unheard r e := by
  obtain ⟨hw, hp, he, hs, hl⟩ := hu
  have hc := hr.steady.closed_eq
  obtain hn | ⟨x, alerting, outcome, hf, hs', hn, rfl⟩ := h.recording_eq
  · rw [hn, List.append_nil] at hl
    cases h with
    | sameEndpoint | registrationFailed | ignored | sameMode | waited | uncalled | misfit | clock
    | delivery => exact .inl ⟨hw, hp, he, hs, hl⟩
    | recorded hf hs' => simp [recording_registering _ hf hs'] at hn
    | moved h =>
      obtain ⟨-, hp'⟩ | ⟨job, -, -, hj⟩ := Worker.advance_cases hc
      · exact .inl ⟨h, hp' ▸ hp, he, hs, hl⟩
      · simp [hj, Worker.current?] at hw
    | enqueued hf | refused hf | pulled hf =>
      obtain ⟨x, alerting, ht⟩ := hr.inFlight_eq _ hf
      cases ht
    | _ => simp_all [Worker.submit_pending]
  · right
    rw [hn] at hl
    refine ⟨⟨x, alerting, hf, ?_⟩, ?_, ?_, hs'⟩
    · rintro rfl
      simp_all
    · simpa using hp
    · simpa using he

structure Account (r₀ : Receiver σ) (acts : List Act) : Prop where
  registrar : Registrar (r₀.after acts)
  of_unheard {e : Endpoint} : Unheard (r₀.after acts) e → Overtaken r₀ acts e
  of_untrue {e : Endpoint} :
    Untrue (r₀.after acts) (r₀.recordings acts) e → Overtaken r₀ acts e

theorem Account.concat (h : Account r₀ acts) (ha : a.isMessage = false) :
    Account r₀ (acts ++ [a]) := by
  obtain ⟨hr, hunheard, huntrue⟩ := h
  have hstep := step_concat r₀ acts a
  constructor
  · exact hr.step hstep ha
  · intro e hu
    obtain hu' | ho := hu.of_step hr hstep
    · exact Run.since_concat_iff.2 ⟨hu.pending_eq, .inr (hunheard hu')⟩
    · exact Run.since_concat_iff.2 ⟨hu.pending_eq, .inl ho⟩
  · intro e hu
    rw [recordings_append, recordings_singleton] at hu
    obtain hu' | hu' := hu.of_step hr hstep
    · exact Run.since_concat_iff.2 ⟨hu.pending_eq, .inr (huntrue hu')⟩
    · exact Run.since_concat_iff.2 ⟨hu.pending_eq, .inr (hunheard hu')⟩

theorem account (name : String) (s : σ) (clock : UInt64) (policy : Fetch.Policy)
    (delivery : Fetch.Delivery) (hs : storedStatus s ≠ .registered)
    (hm : ∀ a ∈ acts, a.isMessage = false) :
    Account (new name s clock policy delivery) acts := by
  induction acts using List.reverseRecOn with
  | nil =>
    constructor
    · exact registrar_new name s clock policy delivery
    · rintro e ⟨⟨x, alerting, hf, -⟩, -, -, -⟩
      simp [new] at hf
    · rintro e ⟨-, -, -, hr, -⟩
      exact absurd hr hs
  | append_singleton acts a ih =>
    have hacts := ih fun b hb => hm b (List.mem_append_left _ hb)
    exact hacts.concat (hm a (by simp))

inductive LastCall (x : Option Endpoint) (r : Receiver σ) (j : List Recording) : Prop
  | awaited (alerting : Bool) (hf : r.inFlight = some (.registering x alerting))
      (hs : r.status ≠ .registered)
  | answered (hw : r.worker.current? = none)
      (hl : r.status = .registered → j.getLast? = some ⟨x, .registered⟩)

theorem LastCall.step {x : Option Endpoint} {j : List Recording} (hl : LastCall x r j)
    (hr : Registrar r) (h : Step r a r') (hp : r.worker.pending = none)
    (hp' : r'.worker.pending = none) : LastCall x r' (j ++ recording a r) := by
  have hc := hr.steady.closed_eq
  have hcur := hr.steady.current_of_inFlight
  obtain hn | ⟨y, alerting, outcome, hf, hs, hn, rfl⟩ := h.recording_eq
  · rw [hn, List.append_nil]
    cases hl with
    | awaited alerting hf hs =>
      cases h with
      | discarded hf' hs' => exact .answered (by simp) (by simp [hs'])
      | recorded hf' hs' => simp [recording_registering _ hf' hs'] at hn
      | moved | registering | retrying | gaveUp | missed | fetching | uncalled | enqueued
      | refused | pulled => simp_all
      | _ => exact .awaited alerting (by simp [hf]) (by simp [hs])
    | answered hw hl =>
      cases h with
      | moved h =>
        obtain ⟨hw', -⟩ | ⟨job, -, hj, -⟩ := Worker.advance_cases hc
        · exact .answered (hw'.trans hw) hl
        · simp [hp] at hj
      | entered | left | leftBare => exact .answered (by simp [hw]) (by simp)
      | recorded | discarded | registering | retrying | gaveUp | missed | fetching | enqueued
      | refused | pulled => simp_all
      | _ => exact .answered (by simp [hw]) (by simpa using hl)
  · refine .answered (by simp) fun ho => ?_
    obtain rfl : outcome = .registered := by simpa using ho
    cases hl with
    | awaited alerting' hf' hs' =>
      obtain ⟨rfl, -⟩ : y = x ∧ alerting = alerting' := by simpa [hf] using hf'
      simp [hn]
    | answered hw hl => simp [hf, hw] at hcur

theorem Overtakes.lastCall {j : List Recording} (h : Overtakes e a r) :
    ∃ x, x ≠ some e ∧ LastCall x (act a r) j := by
  obtain ⟨⟨i, rfl⟩, he, hs, x, alerting, hf, hx⟩ := h
  have ha : act (.handle (.newEndpoint e i)) r = (r.withEndpoint e).publish := by
    simp [act, handle, on_newEndpoint, he, hs, followUp]
  rw [ha]
  exact ⟨x, hx, .awaited alerting (by simp [hf]) (by simp [hs])⟩

theorem Overtaken.lastCall (h : Overtaken r₀ acts e)
    (hr : ∀ before, before <+: acts → Registrar (r₀.after before)) :
    ∃ x, x ≠ some e ∧ LastCall x (r₀.after acts) (r₀.recordings acts) := by
  induction acts using List.reverseRecOn with
  | nil => exact absurd h Run.not_since_nil
  | append_singleton acts a ih =>
    have hpre : acts <+: acts ++ [a] := List.prefix_append _ _
    have hstep := step_concat r₀ acts a
    obtain ⟨hp, ho | ho⟩ := Run.since_concat_iff.1 h
    · rw [after_append]
      exact Overtakes.lastCall ho
    · obtain ⟨x, hx, hl⟩ := ih ho fun before hb => hr before (hb.trans hpre)
      refine ⟨x, hx, ?_⟩
      rw [recordings_append, recordings_singleton]
      exact hl.step (hr acts hpre) hstep ho.last hp

/-- A receiver that no message reaches, and that was not registered when it started, is registered at
rest with the relay's last recorded word on the stored endpoint, unless the endpoint was overtaken. -/
theorem registered_iff_not_overtaken (name : String) (s : σ) (clock : UInt64)
    (policy : Fetch.Policy) (delivery : Fetch.Delivery) (acts : List Act) (e : Endpoint)
    (hs : storedStatus s ≠ .registered) (hm : ∀ a ∈ acts, a.isMessage = false)
    (hi : ((new name s clock policy delivery).after acts).worker.idle)
    (hr : ((new name s clock policy delivery).after acts).status = .registered)
    (he : ((new name s clock policy delivery).after acts).endpoint = some e) :
    ((new name s clock policy delivery).recordings acts).getLast? = some ⟨some e, .registered⟩ ↔
      ¬ Overtaken (new name s clock policy delivery) acts e := by
  have hacc := account name s clock policy delivery hs hm
  obtain ⟨hp, hw⟩ := hacc.registrar.steady.sound.rest_of_idle hi
  constructor
  · intro hlast hover
    obtain ⟨x, hx, hl⟩ := hover.lastCall fun before hpre =>
      (account name s clock policy delivery hs fun a ha => hm a (hpre.subset ha)).registrar
    cases hl with
    | awaited alerting hf hne => exact hne hr
    | answered hw' hl =>
      rw [hl hr] at hlast
      simp [hx] at hlast
  · intro hover
    by_contra hlast
    exact hover (hacc.of_untrue ⟨hw, hp, he, hr, hlast⟩)

theorem not_overtaken_of_retry :
    let r := new "registration" (putEndpoint ⟨"A"⟩ Store.Entries.empty) 0 default (.fixed true)
    let acts : List Act :=
      [.retry, .work, .work, .work, .answer (.registered .registered), .work]
    (r.after acts).worker.idle ∧ (r.after acts).status = .registered ∧ ¬ Overtaken r acts ⟨"A"⟩ := by
  intro r acts
  have hi : (r.after acts).worker.idle := by decide +kernel
  have hr : (r.after acts).status = .registered := by decide +kernel
  have he : (r.after acts).endpoint = some ⟨"A"⟩ := by decide +kernel
  have hs : storedStatus r.store ≠ .registered := by decide +kernel
  have hl : (r.recordings acts).getLast? = some ⟨some ⟨"A"⟩, .registered⟩ := by decide +kernel
  exact ⟨hi, hr,
    (registered_iff_not_overtaken _ _ _ _ _ acts _ hs (by decide) hi hr he).1 hl⟩

/-- The answer for one endpoint comes after another endpoint did, and the receiver rests. -/
theorem registered_for_another :
    let r := new "registration" (putEndpoint ⟨"A"⟩ Store.Entries.empty) 0 default (.fixed true)
    let acts : List Act :=
      [.retry, .work, .work, .work, .handle (.newEndpoint ⟨"B"⟩ "default"),
        .answer (.registered .registered), .work]
    r.status ≠ .registered ∧ (∀ a ∈ acts, a.isMessage = false) ∧ (r.after acts).worker.idle ∧
      (r.after acts).status = .registered ∧ (r.after acts).endpoint = some ⟨"B"⟩ ∧
      r.recordings acts = [⟨some ⟨"A"⟩, .registered⟩] := by
  decide +kernel

end PushKeeper.Receiver
