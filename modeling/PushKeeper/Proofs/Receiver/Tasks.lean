import PushKeeper.Proofs.Fetch.Attempts
import PushKeeper.Proofs.Receiver.Displacement
import PushKeeper.Proofs.Receiver.Settling

namespace PushKeeper.Receiver

open Fetch (Progress)
open Registration (Endpoint Status)
open Store (Access Honest KeyValueStore on_bind)

def InFlight.kind : InFlight → Kind
  | registering .. => .registration
  | enqueuing _ => .fetch
  | pulling _ => .fetch

theorem kind_of_ofFetch? {p : Progress} {task : InFlight} (h : InFlight.ofFetch? p = some task) :
    task.kind = .fetch := by
  cases p <;> cases h <;> rfl

theorem exists_ofFetch? {task : InFlight} (h : task.kind = .fetch) :
    ∃ p, InFlight.ofFetch? p = some task := by
  cases task with
  | registering x alerting => cases h
  | enqueuing strategy => exact ⟨.enqueuing strategy, rfl⟩
  | pulling strategy => exact ⟨.pulling strategy, rfl⟩

theorem ofFetch?_inj {p q : Progress} {task : InFlight} (hp : InFlight.ofFetch? p = some task)
    (hq : InFlight.ofFetch? q = some task) : p = q := by
  cases p <;> cases hp <;> cases q <;> cases hq <;> rfl

section

variable {σ : Type}

def Paired (r : Receiver σ) : Prop :=
  ∀ task, r.inFlight = some task → ∃ job, r.worker.current? = some job ∧ job.kind = task.kind

theorem Paired.of_eq {r r' : Receiver σ} (hr : Paired r)
    (hw : r'.worker.current? = r.worker.current?) (hf : r'.inFlight = r.inFlight) : Paired r' := by
  intro task ht
  rw [hw]
  exact hr task (hf ▸ ht)

theorem Paired.inFlight_eq_none {r : Receiver σ} (hr : Paired r) (hw : r.worker.current? = none) :
    r.inFlight = none := by
  cases hf : r.inFlight with
  | none => rfl
  | some task =>
    obtain ⟨job, hj, -⟩ := hr task hf
    simp [hw] at hj

end

variable {σ : Type} [KeyValueStore σ]

theorem kind_of_start {job : Job} {task : InFlight} {r : Receiver σ}
    (h : (job.start.on r).1 = .ok (some task)) : task.kind = job.kind := by
  have hregistration : ∀ alerting, ((startRegistration alerting).on r).1 = .ok (some task) →
      task.kind = .registration := by
    intro alerting h
    rw [startRegistration, on_bind, on_ofStore] at h
    cases he : Store.Values.endpoint r.store with
    | error e => simp [he] at h
    | ok x =>
      obtain rfl : .registering x alerting = task := by simpa [he] using h
      rfl
  cases job with
  | register alerting => exact hregistration alerting h
  | retry =>
    rw [Job.start, startRetry, on_bind, on_ofStore] at h
    cases hs : Store.Values.status r.store with
    | error e => simp [hs] at h
    | ok status =>
      by_cases ha : status = .airGapped
      · simp [hs, ha] at h
      · cases he : Store.Values.endpoint r.store with
        | error e => simp [hs, ha, he, on_bind] at h
        | ok x =>
          cases x with
          | none =>
            simp only [hs, ha, he, if_false, on_bind, on_ofStore, Option.isNone_none, if_true] at h
            exact absurd h (endRegistration_ne _ _ _ _)
          | some e =>
            simp only [hs, ha, he, if_false, on_bind, on_ofStore, Option.isNone_some,
              Bool.false_eq_true] at h
            exact hregistration false h
  | fetch =>
    obtain rfl : .enqueuing r.nextStrategy = task := Option.some.inj (Except.ok.inj h)
    rfl

theorem resume_ofFetch? {p : Progress} {task : InFlight} (h : InFlight.ofFetch? p = some task)
    (reply : Reply) : task.resume reply =
      (pure (InFlight.ofFetch? (p.onReply reply)) : Access (Receiver σ) _) := by
  cases p with
  | enqueuing strategy | pulling strategy =>
    obtain rfl := Option.some.inj h
    cases reply <;> rfl
  | finished outcome => cases h

omit [KeyValueStore σ] in
theorem inFlight_perform_pure (wait : Option InFlight) (r : Receiver σ) :
    (r.perform (pure wait)).inFlight = wait := by
  cases wait <;> rfl

theorem kind_of_resume {task task' : InFlight} {reply : Reply} {r : Receiver σ}
    (h : ((task.resume reply).on r).1 = .ok (some task')) : task'.kind = task.kind := by
  cases hk : task.kind with
  | fetch =>
    obtain ⟨p, hp⟩ := exists_ofFetch? hk
    rw [resume_ofFetch? hp] at h
    exact kind_of_ofFetch? (Except.ok.inj h)
  | registration =>
    cases task with
    | registering x alerting =>
      cases reply with
      | registered outcome => exact absurd h (endRegistration_ne _ _ _ _)
      | enqueued answer | pulled answer =>
        obtain rfl : .registering x alerting = task' := by simpa [InFlight.resume] using h
        rfl
    | enqueuing strategy | pulling strategy => cases hk

section

variable {a : Act} {r : Receiver σ} {part : Access (Receiver σ) (Option InFlight)}

theorem part_ok (hr : Paired r) (hw : r.worker.current? = some .fetch) (hp : a.part? r = some part) :
    ∃ wait, (part.on r).1 = .ok wait := by
  obtain ⟨-, -, job, hj, rfl⟩ | ⟨reply, task, -, hf, rfl⟩ := Act.part?_cases hp
  · obtain rfl : .fetch = job := Option.some.inj (hw.symm.trans hj)
    exact ⟨_, rfl⟩
  · obtain ⟨job, hj, hk⟩ := hr task hf
    obtain rfl : .fetch = job := Option.some.inj (hw.symm.trans hj)
    obtain ⟨p, hp⟩ := exists_ofFetch? hk.symm
    rw [resume_ofFetch? hp]
    exact ⟨_, rfl⟩

theorem Paired.perform (hr : Paired r) (hp : a.part? r = some part) : Paired (r.perform part) := by
  have hkind : ∀ task, (part.on r).1 = .ok (some task) →
      ∃ job, r.worker.current? = some job ∧ job.kind = task.kind := by
    intro task ht
    obtain ⟨-, -, job, hw, rfl⟩ | ⟨reply, before, -, hf, rfl⟩ := Act.part?_cases hp
    · exact ⟨job, hw, (kind_of_start ht).symm⟩
    · obtain ⟨job, hw, hj⟩ := hr before hf
      exact ⟨job, hw, hj.trans (kind_of_resume ht).symm⟩
  obtain ⟨r', hasks, ⟨task, ht, he⟩ | ⟨ending, he⟩⟩ := perform_cases (within_part Asks.frame hp) r
  · rw [he]
    intro task' ht'
    obtain rfl : task = task' := Option.some.inj ht'
    rw [show r'.worker = r.worker from hasks.worker_eq]
    exact hkind task ht
  · rw [he]
    intro task' ht'
    cases ht'

end

theorem Paired.act {r : Receiver σ} (hr : Paired r) (a : Act) : Paired (act a r) := by
  cases hp : a.part? r with
  | some part =>
    rw [act_eq_perform hp]
    exact hr.perform hp
  | none =>
    cases ha : a.isRequest with
    | true =>
      have h := asks_request ha r
      refine hr.of_eq ?_ h.inFlight_eq
      rw [h.worker_eq]
      cases a.job? r <;> simp
    | false =>
      obtain ⟨-, hw, he⟩ | ⟨-, clock, delivery, he⟩ := act_of_part?_eq_none hp ha
      · rw [he]
        intro task ht
        have hf := hr.inFlight_eq_none hw
        simp [hf] at ht
      · rw [he]
        exact hr.of_eq rfl rfl

omit [KeyValueStore σ] in
theorem policyFrame : Frame fun r r' : Receiver σ => r'.policy = r.policy where
  refl _ := rfl
  trans h h' := h'.trans h
  store _ _ := rfl
  note _ _ := rfl

theorem policy_followUp (before : Status) (r : Receiver σ) : (followUp before r).policy = r.policy := by
  cases before with
  | airGapped => exact policyFrame.publish r
  | unconfigured => exact policyFrame.publish r
  | registered | internalError | missingEndpoint => rfl

theorem policy_newEndpoint (e : Endpoint) (r : Receiver σ) :
    ((newEndpoint e).on r).2.policy = r.policy := by
  refine policyFrame.bind (policyFrame.ofStore _) (fun before => ?_) r
  refine policyFrame.bind (policyFrame.onStore _) fun changed => ?_
  cases changed with
  | false => exact policyFrame.pure _
  | true => exact within_modify (policy_followUp before)

theorem policy_unregistered (r : Receiver σ) : (unregistered.on r).2.policy = r.policy :=
  policyFrame.bind (policyFrame.onStore _) (fun _ => within_modify policyFrame.publish) r

theorem policy_setAirGapped (enabled : Bool) (r : Receiver σ) :
    ((setAirGapped enabled).on r).2.policy = r.policy := by
  refine policyFrame.bind (policyFrame.onStore _) (fun switched => ?_) r
  cases switched with
  | false => exact policyFrame.pure _
  | true =>
    refine policyFrame.bind (within_modify policyFrame.publish) fun _ => ?_
    cases enabled with
    | true => exact policyFrame.pure _
    | false =>
      refine policyFrame.bind (policyFrame.ofStore _) fun x => ?_
      cases x with
      | none => exact policyFrame.pure _
      | some e => exact within_modify fun _ => rfl

omit [KeyValueStore σ] in
theorem policy_perform (part : Access (Receiver σ) (Option InFlight)) (r : Receiver σ) :
    (r.perform part).policy = (part.on r).2.policy := by
  unfold perform
  split <;> simp [*]

theorem policy_act (a : Act) (r : Receiver σ) : (act a r).policy = r.policy := by
  cases hp : a.part? r with
  | some part =>
    rw [act_eq_perform hp, policy_perform]
    exact within_part policyFrame hp r
  | none =>
    cases ha : a.isRequest with
    | false =>
      obtain ⟨-, -, he⟩ | ⟨-, clock, delivery, he⟩ := act_of_part?_eq_none hp ha <;> rw [he]
    | true =>
      cases a with
      | handle event =>
        cases event with
        | newEndpoint e i => exact policy_newEndpoint e r
        | registrationFailed i => rfl
        | unregistered i => exact policy_unregistered r
        | message p i =>
          simp only [act, handle, message]
          split <;> rfl
      | retry => rfl
      | airGapped enabled => exact policy_setAirGapped enabled r
      | work | answer | clock | delivery => cases ha

variable [Honest σ]

theorem Paired.happen {r : Receiver σ} (hr : Paired r) (h : Happening σ) : Paired (happen h r) := by
  cases h with
  | act a => exact hr.act a
  | refusals s =>
    simp only [Receiver.happen]
    split
    · exact hr.of_eq rfl rfl
    · exact hr
  | drop => exact hr.of_eq (by simp [Receiver.happen, Receiver.drop]) rfl

end PushKeeper.Receiver
