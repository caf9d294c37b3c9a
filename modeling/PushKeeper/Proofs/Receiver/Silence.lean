import PushKeeper.Proofs.Receiver.Discarded
import PushKeeper.Proofs.Receiver.Registered

namespace PushKeeper.Receiver

open Registration (AlertKind Endpoint Status)
open Store (Faultless KeyValueStore)
open Store.Values

def Job.tells : Job → Bool
  | register alerting => alerting
  | retry => false
  | fetch => false

section

variable {σ : Type}

def next? (r : Receiver σ) : Option Job :=
  match r.worker.current?, r.inFlight with
  | some job, none => some job
  | _, _ => r.worker.pending

def Muted (r : Receiver σ) : Prop :=
  ∃ job, r.next? = some job ∧ job.tells = false

theorem next?_of_current {r : Receiver σ} {job : Job} (h : r.worker.current? = some job)
    (hf : r.inFlight = none) : r.next? = some job := by
  simp [next?, h, hf]

theorem next?_of_inFlight {r : Receiver σ} (hf : r.inFlight.isSome) :
    r.next? = r.worker.pending := by
  obtain ⟨task, hf⟩ := Option.isSome_iff_exists.1 hf
  cases h : r.worker.current? <;> simp [next?, h, hf]

theorem next?_of_rest {r : Receiver σ} (h : r.worker.current? = none) :
    r.next? = r.worker.pending := by
  simp [next?, h]

theorem next?_congr {r r' : Receiver σ} (hw : r'.worker = r.worker) (hf : r'.inFlight = r.inFlight) :
    r'.next? = r.next? := by
  simp [next?, hw, hf]

theorem next?_of_ended {r r' : Receiver σ} (hf : r.inFlight.isSome)
    (hw : r'.worker = r.worker.finish .done) : r'.next? = r.next? := by
  rw [next?_of_inFlight hf, next?_of_rest (by simp [hw])]
  simp [hw]

theorem next?_moved {r : Receiver σ} (hr : Steady r) (hw : r.worker.current? = none) :
    ({ r with worker := r.worker.advance } : Receiver σ).next? = r.next? := by
  have hf : r.inFlight = none := by simpa [hw] using hr.current_of_inFlight
  obtain ⟨hcur, hp⟩ | ⟨job, -, hp, ha⟩ := Worker.advance_cases hr.closed_eq
  · rw [next?_of_rest hw, next?_of_rest (hcur.trans hw)]
    exact hp
  · have hcur : r.worker.advance.current? = some job := by rw [ha]; rfl
    rw [next?_of_rest hw, hp]
    exact next?_of_current (r := { r with worker := r.worker.advance }) hcur hf

theorem Muted.of_next? {r r' : Receiver σ} (h : r'.next? = r.next?) (hm : Muted r') : Muted r := by
  obtain ⟨job, hj, ht⟩ := hm
  exact ⟨job, h ▸ hj, ht⟩

theorem Muted.of_submit {r r₁ : Receiver σ} {job : Job} (hc : r.worker.closed = false)
    (hw : r₁.worker = r.worker) (hf : r₁.inFlight = r.inFlight) (hj : job.tells = true)
    (hm : Muted (r₁.submit job)) :
    ∃ job, r.worker.current? = some job ∧ r.inFlight = none ∧ job.tells = false := by
  obtain ⟨job', hn, ht⟩ := hm
  have hp : (r₁.submit job).worker.pending = some job := by
    simp [hw, Worker.submit_pending job hc]
  cases hcur : r.worker.current? with
  | none =>
    rw [next?_of_rest (by simp [hw, hcur]), hp] at hn
    simp_all
  | some taken =>
    cases hfl : r.inFlight with
    | some task =>
      rw [next?_of_inFlight (by simp [hf, hfl]), hp] at hn
      simp_all
    | none =>
      have ht' : (r₁.submit job).next? = some taken :=
        next?_of_current (by simp [hw, hcur]) (by simp [hf, hfl])
      simp_all

@[simp] theorem alerts_alert (r : Receiver σ) (k : AlertKind) :
    (r.alert k).alerts = r.alerts ++ [k] := by
  simp [alerts, alert, note]

@[simp] theorem alerts_done (r : Receiver σ) : r.done.alerts = r.alerts := rfl

theorem alerts_tellFailure (r : Receiver σ) (alerting : Bool) (outcome : Status) :
    (r.tellFailure alerting outcome).alerts =
      r.alerts ++ if alerting && outcome != .registered then [.endpointChangedError] else [] := by
  unfold tellFailure
  split <;> simp

end

variable {σ : Type} [KeyValueStore σ]

@[simp] theorem alerts_publish (r : Receiver σ) : r.publish.alerts = r.alerts := by
  unfold publish
  split
  · simp [alerts, note]
  · rfl

@[simp] theorem alerts_withStatus (r : Receiver σ) (status : Status) :
    (r.withStatus status).alerts = r.alerts := rfl

/-- The call of the relay that an act begins. -/
def calling (a : Act) (r : Receiver σ) : List (Option Endpoint) :=
  match r.call?, (act a r).call? with
  | none, some (.register x) => [x]
  | _, _ => []

def calls (r : Receiver σ) (acts : List Act) : List (Option Endpoint) :=
  Run.notes act calling r acts

@[simp] theorem calls_append (r : Receiver σ) (as bs : List Act) :
    r.calls (as ++ bs) = r.calls as ++ (r.after as).calls bs := by
  simp [calls, after]

@[simp] theorem calls_singleton (r : Receiver σ) (a : Act) : r.calls [a] = calling a r := by
  simp [calls]

variable [Faultless σ]

inductive AsksQuietly (r : Receiver σ) : Act → Prop
  | retry : AsksQuietly r .retry
  | changed {e i} (h : r.endpoint ≠ some e)
      (hs : r.status = .internalError ∨ r.status = .missingEndpoint) :
      AsksQuietly r (.handle (.newEndpoint e i))
  | left (h : r.status = .airGapped) (he : r.endpoint.isSome) : AsksQuietly r (.airGapped false)
  | message {p i} (h : r.delivery.isActive r.store = true) :
      AsksQuietly r (.handle (.message p i))

def Mutes (a : Act) (r : Receiver σ) : Prop :=
  AsksQuietly r a ∨ ∃ job, r.worker.current? = some job ∧ r.inFlight = none ∧ job.tells = false

/-- A task that does not tell of its failure was queued in the course of the acts, or had been taken up
before, and ever since the task next to begin has been such a one. -/
def Silenced (r : Receiver σ) (acts : List Act) : Prop :=
  Run.Since act r Mutes Muted acts

variable {r r' : Receiver σ} {a : Act} {acts : List Act} {e : Endpoint} {i : String}

theorem muted_of_act (hr : Steady r) (hn : calling a r = []) (hm : Muted (act a r)) :
    Muted r ∨ AsksQuietly r a := by
  have h := step_act r a
  generalize hact : act a r = r' at h hm
  -- What is next changes where a task is queued or begins, and nowhere else.
  cases h with
  | queuedAlerting h hs =>
    obtain ⟨job, hw, hf, ht⟩ := hm.of_submit hr.closed_eq rfl rfl rfl
    exact .inl ⟨job, next?_of_current hw hf, ht⟩
  | queued h hs => exact .inr (.changed h hs)
  | accepted h => exact .inr (.message h)
  | retry => exact .inr .retry
  | left h he => exact .inr (.left h he)
  | moved h => exact .inl (hm.of_next? (next?_moved hr h))
  | registering h hf | retrying h hf => simp [calling, call?, hact, hf, InFlight.call] at hn
  | gaveUp h hf | missed h hf | fetching h hf => exact .inl ⟨_, next?_of_current h hf, rfl⟩
  | recorded hf | discarded hf | enqueued hf | pulled hf =>
    exact .inl (hm.of_next? (next?_of_ended (by simp [hf]) (by simp)))
  | refused hf h =>
    refine .inl (hm.of_next? ?_)
    rw [next?_of_inFlight (by simp), next?_of_inFlight (by simp [hf])]
    simp
  | _ => exact .inl (hm.of_next? (next?_congr (by simp) (by simp)))

theorem next?_of_calling {x : Option Endpoint} (hc : calling a r = [x]) :
    ∃ job, r.next? = some job ∧ (act a r).inFlight = some (.registering x job.tells) := by
  have h := step_act r a
  generalize hact : act a r = r' at h
  cases h with
  | registering h hf | retrying h hf =>
    refine ⟨_, next?_of_current h hf, ?_⟩
    simp [calling, call?, hact, hf, InFlight.call] at hc
    simp [hc, Job.tells]
  | _ => simp_all [calling, call?, InFlight.call]

theorem silenced_of_muted (hr : Steady r) (he : r.endpoint ≠ some e) (hs : r.status = .registered)
    (hn : r.calls (.handle (.newEndpoint e i) :: acts) = [])
    (hm : Muted (r.after (.handle (.newEndpoint e i) :: acts))) :
    Silenced r (.handle (.newEndpoint e i) :: acts) := by
  -- Traced back one act at a time: what does not tell now did not before, or was queued just then.
  induction acts using List.reverseRecOn with
  | nil =>
    have hact : act (.handle (.newEndpoint e i)) r = (r.withEndpoint e).submit (.register true) := by
      simp [act, handle, on_newEndpoint, he, hs, followUp]
    refine ⟨[], _, [], rfl, .inr ?_, fun p hp => ?_⟩
    · rw [after_cons, after_nil, hact] at hm
      exact hm.of_submit hr.closed_eq rfl rfl rfl
    · rw [List.prefix_nil.1 hp]
      exact hm
  | append_singleton acts a ih =>
    rw [← List.cons_append] at hn hm ⊢
    rw [calls_append, List.append_eq_nil_iff, calls_singleton] at hn
    refine Run.since_concat_iff.2 ⟨hm, ?_⟩
    rw [after_append] at hm
    obtain hm' | ha := muted_of_act (hr.after _) hn.2 hm
    · exact .inr (ih hn.1 hm')
    · exact .inl (.inl ha)

theorem alerts_answer {x : Option Endpoint} {alerting : Bool} (outcome : Status)
    (hf : r.inFlight = some (.registering x alerting)) (hs : r.status ≠ .airGapped) :
    (act (.answer (.registered outcome)) r).alerts =
      r.alerts ++ if alerting && outcome != .registered then [.endpointChangedError] else [] := by
  have hact : act (.answer (.registered outcome)) r =
      ((r.withStatus outcome).publish.tellFailure alerting outcome).done := by
    simp [act, answer, hf, perform, InFlight.resume, on_endRegistration, hs, done]
  rw [hact, alerts_done, alerts_tellFailure]
  simp

theorem status_ne_of_recording {outcome : Status} {j : Recording}
    (h : recording (.answer (.registered outcome)) r = [j]) : r.status ≠ .airGapped := by
  obtain hn | ⟨x, alerting, o, -, hs, -⟩ := (step_act r (.answer (.registered outcome))).recording_eq
  · simp [h] at hn
  · exact hs

/-- An endpoint comes that is not the stored one, while registered. The first call of the relay after it
is answered with a failure, and the answer is stored. Then the user is alerted, if and only if the call
was not silenced. -/
theorem told_iff_not_silenced (name : String) (s : σ) (clock : UInt64) (policy : Fetch.Policy)
    (delivery : Fetch.Delivery) (before between during : List Act) (e : Endpoint) (i : String)
    (call : Act) (x : Option Endpoint) (outcome : Status) :
    let r := (new name s clock policy delivery).after before
    let since := .handle (.newEndpoint e i) :: between
    let r' := r.after (since ++ call :: during)
    r.endpoint ≠ some e → r.status = .registered → r.calls since = [] →
    calling call (r.after since) = [x] → (∀ a ∈ during, a.answersRelay = false) →
    recording (.answer (.registered outcome)) r' = [⟨x, outcome⟩] → outcome ≠ .registered →
    ((act (.answer (.registered outcome)) r').alerts = r'.alerts ++ [.endpointChangedError] ↔
      ¬ Silenced r since) := by
  intro r since r' he hs hn hc hd hrec ho
  have hr : Steady r := (steady_new name s clock policy delivery).after before
  obtain ⟨job, hnext, hf⟩ := next?_of_calling hc
  have hf' : r'.inFlight = some (.registering x job.tells) := by
    simpa [r'] using (awaiting_after ((hr.after since).step (step_act _ call)) hf hd).1
  have hsil : Silenced r since ↔ job.tells = false := by
    constructor
    · intro hsil
      obtain ⟨job', hj, ht⟩ := Run.Since.last hsil
      have : job' = job := by simpa [hnext] using hj.symm.trans hnext
      exact this ▸ ht
    · intro ht
      exact silenced_of_muted hr he hs hn ⟨job, hnext, ht⟩
  rw [alerts_answer outcome hf' (status_ne_of_recording hrec), hsil]
  cases ht : job.tells <;> simp [ho]

/-- Two endpoints come while registered, and the relay is called for the second. Another attempt that
is asked for during the call does not keep the user from hearing that it failed. -/
theorem told_of_second_endpoint :
    let s := putEndpoint ⟨"A"⟩ (putStatus .registered Store.Entries.empty)
    let r := new "registration" s 0 default (.fixed true)
    let since : List Act :=
      [.handle (.newEndpoint ⟨"B"⟩ "default"), .handle (.newEndpoint ⟨"C"⟩ "default"), .work, .work]
    let r' := r.after (since ++ [.work, .retry])
    r.endpoint ≠ some ⟨"B"⟩ ∧ r.status = .registered ∧ r.calls since = [] ∧
      calling .work (r.after since) = [some ⟨"C"⟩] ∧
      recording (.answer (.registered .internalError)) r' = [⟨some ⟨"C"⟩, .internalError⟩] ∧
      (act (.answer (.registered .internalError)) r').alerts = r'.alerts ++ [.endpointChangedError] ∧
      ¬ Silenced r since := by
  intro s r since r'
  have he : r.endpoint ≠ some ⟨"B"⟩ := by decide +kernel
  have hs : r.status = .registered := by decide +kernel
  have hn : r.calls since = [] := by decide +kernel
  have hc : calling .work (r.after since) = [some ⟨"C"⟩] := by decide +kernel
  have hrec : recording (.answer (.registered .internalError)) r' =
      [⟨some ⟨"C"⟩, .internalError⟩] := by decide +kernel
  have ha : (act (.answer (.registered .internalError)) r').alerts =
      r'.alerts ++ [.endpointChangedError] := by decide +kernel
  exact ⟨he, hs, hn, hc, hrec, ha,
    (told_iff_not_silenced _ _ _ _ _ [] _ [.retry] _ _ _ _ _ he hs hn hc (by decide) hrec
      (by decide)).1 ha⟩

/-- An endpoint comes while registered, and the user asks for another attempt before the worker gets to
it. The attempt takes its place, the relay does not register the endpoint, and the user does not hear
of it. -/
theorem not_told_of_retry :
    let s := putEndpoint ⟨"A"⟩ (putStatus .registered Store.Entries.empty)
    let r := new "registration" s 0 default (.fixed true)
    let since : List Act := [.handle (.newEndpoint ⟨"B"⟩ "default"), .retry, .work, .work]
    let r' := r.after (since ++ [.work])
    let r'' := act (.answer (.registered .internalError)) r'
    r.endpoint ≠ some ⟨"B"⟩ ∧ r.status = .registered ∧ r.calls since = [] ∧
      calling .work (r.after since) = [some ⟨"B"⟩] ∧
      recording (.answer (.registered .internalError)) r' = [⟨some ⟨"B"⟩, .internalError⟩] ∧
      r''.status = .internalError ∧ r''.alerts = [] := by
  decide +kernel

end PushKeeper.Receiver
