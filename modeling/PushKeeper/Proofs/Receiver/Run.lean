import PushKeeper.Proofs.Receiver.Parts
import PushKeeper.Proofs.Worker.Run

namespace PushKeeper.Receiver

open Registration (AlertKind Endpoint Snapshot Status)
open Store (Faultless KeyValueStore)
open Store.Values

/-- What can happen to a receiver. The clock and the answer to whether the transport delivers are
not its own and change as they like. -/
inductive Act
  | handle (event : Feed.TransportEvent)
  | retry
  | airGapped (enabled : Bool)
  | work
  | answer (reply : Reply)
  | clock (time : UInt64)
  | delivery (d : Fetch.Delivery)

variable {σ : Type} [KeyValueStore σ]

def act : Act → Receiver σ → Receiver σ
  | .handle event, r => r.handle event
  | .retry, r => r.retry
  | .airGapped enabled, r => ((setAirGapped enabled).on r).2
  | .work, r => r.advance
  | .answer reply, r => r.answer reply
  | .clock time, r => { r with clock := time }
  | .delivery d, r => { r with delivery := d }

def after (r : Receiver σ) (acts : List Act) : Receiver σ :=
  Run.after act r acts

@[simp] theorem after_nil (r : Receiver σ) : r.after [] = r := rfl

@[simp] theorem after_append (r : Receiver σ) (as bs : List Act) :
    r.after (as ++ bs) = (r.after as).after bs := by
  simp [after]

@[simp] theorem after_cons (r : Receiver σ) (a : Act) (acts : List Act) :
    r.after (a :: acts) = (act a r).after acts := rfl

theorem act_work_of_rest {r : Receiver σ} (h : r.worker.current? = none) :
    act .work r = { r with worker := r.worker.advance } := by
  simp [act, advance, h]

def InFlight.fits : InFlight → Reply → Bool
  | registering .., .registered _ => true
  | enqueuing _, .enqueued _ => true
  | pulling _, .pulled _ => true
  | _, _ => false

variable [Faultless σ]

/-- Everything that an act can do, by what it finds. -/
inductive Step (r : Receiver σ) : Act → Receiver σ → Prop
  | sameEndpoint {e i} (h : r.endpoint = some e) : Step r (.handle (.newEndpoint e i)) r
  | toldAirGapped {e i} (h : r.endpoint ≠ some e) (hs : r.status = .airGapped) :
      Step r (.handle (.newEndpoint e i))
        ((r.withEndpoint e).publish.alert .endpointChangedAirGapped)
  | told {e i} (h : r.endpoint ≠ some e) (hs : r.status = .unconfigured) :
      Step r (.handle (.newEndpoint e i)) (r.withEndpoint e).publish
  | queuedAlerting {e i} (h : r.endpoint ≠ some e) (hs : r.status = .registered) :
      Step r (.handle (.newEndpoint e i)) ((r.withEndpoint e).submit (.register true))
  | queued {e i} (h : r.endpoint ≠ some e)
      (hs : r.status = .internalError ∨ r.status = .missingEndpoint) :
      Step r (.handle (.newEndpoint e i)) ((r.withEndpoint e).submit (.register false))
  | unregistered {i} : Step r (.handle (.unregistered i)) r.withoutEndpoint.publish
  | registrationFailed {i} :
      Step r (.handle (.registrationFailed i)) (r.alert .registrationFailed)
  | accepted {p i} (h : r.delivery.isActive r.store = true) :
      Step r (.handle (.message p i)) (r.submit .fetch)
  | ignored {p i} (h : r.delivery.isActive r.store = false) : Step r (.handle (.message p i)) r
  | retry : Step r .retry (r.submit .retry)
  | sameMode {enabled} (h : r.status = .airGapped ↔ enabled = true) : Step r (.airGapped enabled) r
  | entered (h : r.status ≠ .airGapped) :
      Step r (.airGapped true) (r.withStatus .airGapped).publish
  | left (h : r.status = .airGapped) (he : r.endpoint.isSome) :
      Step r (.airGapped false)
        ((r.withStatus .unconfigured).publish.submit (.register false))
  | leftBare (h : r.status = .airGapped) (he : r.endpoint = none) :
      Step r (.airGapped false) (r.withStatus .unconfigured).publish
  | moved (h : r.worker.current? = none) :
      Step r .work { r with worker := r.worker.advance }
  | waited {job task} (h : r.worker.current? = some job) (hf : r.inFlight = some task) :
      Step r .work r
  | registering {alerting} (h : r.worker.current? = some (.register alerting))
      (hf : r.inFlight = none) : Step r .work (r.await (.registering r.endpoint alerting))
  | retrying (h : r.worker.current? = some .retry) (hf : r.inFlight = none)
      (hs : r.status ≠ .airGapped) (he : r.endpoint.isSome) :
      Step r .work (r.await (.registering r.endpoint false))
  | gaveUp (h : r.worker.current? = some .retry) (hf : r.inFlight = none)
      (hs : r.status = .airGapped) : Step r .work r.done
  | missed (h : r.worker.current? = some .retry) (hf : r.inFlight = none)
      (hs : r.status ≠ .airGapped) (he : r.endpoint = none) :
      Step r .work (r.withStatus .missingEndpoint).publish.done
  | fetching (h : r.worker.current? = some .fetch) (hf : r.inFlight = none) :
      Step r .work (r.stamped.await (.enqueuing r.nextStrategy))
  | uncalled {reply} (hf : r.inFlight = none) : Step r (.answer reply) r
  | misfit {task reply} (hf : r.inFlight = some task) (h : task.fits reply = false) :
      Step r (.answer reply) r
  | recorded {x alerting outcome} (hf : r.inFlight = some (.registering x alerting))
      (hs : r.status ≠ .airGapped) :
      Step r (.answer (.registered outcome))
        ((r.withStatus outcome).publish.tellFailure alerting outcome).done
  | discarded {x alerting outcome} (hf : r.inFlight = some (.registering x alerting))
      (hs : r.status = .airGapped) : Step r (.answer (.registered outcome)) r.done
  | enqueued {strategy} (hf : r.inFlight = some (.enqueuing strategy)) :
      Step r (.answer (.enqueued (.ok true))) r.done
  | refused {strategy answer} (hf : r.inFlight = some (.enqueuing strategy))
      (h : answer ≠ .ok true) : Step r (.answer (.enqueued answer)) (r.await (.pulling strategy))
  | pulled {strategy answer} (hf : r.inFlight = some (.pulling strategy)) :
      Step r (.answer (.pulled answer)) r.done
  | clock {time} : Step r (.clock time) { r with clock := time }
  | delivery {d} : Step r (.delivery d) { r with delivery := d }

section

variable (r : Receiver σ)

theorem step_handle (event : Feed.TransportEvent) : Step r (.handle event) (r.handle event) := by
  cases event with
  | newEndpoint e i =>
    simp only [handle, on_newEndpoint]
    by_cases h : r.endpoint = some e
    · rw [if_pos h]
      exact .sameEndpoint h
    · rw [if_neg h]
      cases hs : r.status with
      | unconfigured => exact .told h hs
      | airGapped => exact .toldAirGapped h hs
      | registered => exact .queuedAlerting h hs
      | internalError => exact .queued h (.inl hs)
      | missingEndpoint => exact .queued h (.inr hs)
  | registrationFailed i => exact .registrationFailed
  | unregistered i =>
    simp only [handle, on_unregistered]
    exact .unregistered
  | message p i =>
    cases h : r.delivery.isActive r.store with
    | true => simpa [handle, message, h] using Step.accepted h
    | false => simpa [handle, message, h] using Step.ignored h

theorem step_airGapped (enabled : Bool) :
    Step r (.airGapped enabled) ((setAirGapped enabled).on r).2 := by
  rw [on_setAirGapped]
  by_cases h : decide (r.status = .airGapped) = enabled
  · rw [if_pos h]
    exact .sameMode (by simp [← h])
  · rw [if_neg h]
    cases enabled with
    | true => exact .entered (by simpa using h)
    | false =>
      have hs : r.status = .airGapped := by simpa using h
      cases he : r.endpoint with
      | none => simpa [he] using Step.leftBare hs he
      | some e => simpa [he] using Step.left hs (by simp [he])

theorem step_work : Step r .work r.advance := by
  unfold advance
  cases hc : r.worker.current? with
  | none => exact .moved hc
  | some job =>
    cases hf : r.inFlight with
    | some task => exact .waited hc hf
    | none =>
      cases job with
      | register alerting =>
        simp only [perform, Job.start, on_startRegistration]
        exact .registering hc hf
      | retry =>
        simp only [perform, Job.start, on_startRetry]
        by_cases hs : r.status = .airGapped
        · simpa [hs, done] using Step.gaveUp hc hf hs
        · cases he : r.endpoint with
          | none => simpa [hs, he, done] using Step.missed hc hf hs he
          | some e => simpa [hs, he, await] using Step.retrying hc hf hs (by simp [he])
      | fetch => exact .fetching hc hf

theorem step_answer (reply : Reply) : Step r (.answer reply) (r.answer reply) := by
  unfold answer
  cases hf : r.inFlight with
  | none => exact .uncalled hf
  | some task =>
    by_cases h : task.fits reply
    · cases task with
      | registering x alerting =>
        cases reply with
        | registered outcome =>
          simp only [perform, InFlight.resume, on_endRegistration]
          by_cases hs : r.status = .airGapped
          · rw [if_pos hs]
            exact .discarded hf hs
          · rw [if_neg hs]
            exact .recorded hf hs
        | enqueued answer => simp [InFlight.fits] at h
        | pulled answer => simp [InFlight.fits] at h
      | enqueuing strategy =>
        cases reply with
        | enqueued answer =>
          by_cases ha : answer = .ok true
          · subst ha
            exact .enqueued hf
          · have hr : Fetch.Progress.afterEnqueue strategy answer = .pulling strategy := by
              cases answer with
              | error e => rfl
              | ok accepted => cases accepted <;> simp_all [Fetch.Progress.afterEnqueue]
            simp only [perform, InFlight.resume, hr, InFlight.ofFetch?]
            exact .refused hf ha
        | registered outcome => simp [InFlight.fits] at h
        | pulled answer => simp [InFlight.fits] at h
      | pulling strategy =>
        cases reply with
        | pulled answer => exact .pulled hf
        | registered outcome => simp [InFlight.fits] at h
        | enqueued answer => simp [InFlight.fits] at h
    · have hr : task.resume reply = (pure (some task) : Store.Access (Receiver σ) _) := by
        cases task <;> cases reply <;> first | rfl | simp [InFlight.fits] at h
      have hp : r.perform (task.resume reply) = r := by
        simp only [perform, hr, Store.on_pure]
        rw [← hf]
      show Step r _ (r.perform (task.resume reply))
      rw [hp]
      exact .misfit hf (by simpa using h)

theorem step_act (a : Act) : Step r a (act a r) := by
  cases a with
  | handle event => exact step_handle r event
  | retry => exact .retry
  | airGapped enabled => exact step_airGapped r enabled
  | work => exact step_work r
  | answer reply => exact step_answer r reply
  | clock time => exact .clock
  | delivery d => exact .delivery

theorem step_concat (acts : List Act) (a : Act) :
    Step (r.after acts) a (r.after (acts ++ [a])) := by
  simpa using step_act (r.after acts) a

end

structure Steady (r : Receiver σ) : Prop where
  sound : r.worker.Sound
  closed_eq : r.worker.closed = false
  current_of_inFlight : r.inFlight.isSome → r.worker.current?.isSome

omit [KeyValueStore σ] [Faultless σ] in
theorem steady_new (name : String) (s : σ) (clock : UInt64) (policy : Fetch.Policy)
    (delivery : Fetch.Delivery) : Steady (new name s clock policy delivery) := by
  constructor
  · exact Worker.sound_new name
  · rfl
  · simp [new]

omit [KeyValueStore σ] [Faultless σ] in
theorem Steady.rest_of_idle {r : Receiver σ} (hr : Steady r) (hi : r.worker.idle) :
    r.worker.pending = none ∧ r.worker.current? = none ∧ r.inFlight = none := by
  obtain ⟨hp, hc⟩ := hr.sound.rest_of_idle hi
  exact ⟨hp, hc, by simpa [hc] using hr.current_of_inFlight⟩

theorem Step.worker_eq {r r' : Receiver σ} {a : Act} (h : Step r a r') :
    r'.worker = r.worker ∨ ∃ b, b ≠ .close ∧ r'.worker = Worker.act b r.worker := by
  cases h with
  | queuedAlerting h hs => exact .inr ⟨.submit (.register true), by simp, rfl⟩
  | queued h hs => exact .inr ⟨.submit (.register false), by simp, rfl⟩
  | accepted h => exact .inr ⟨.submit .fetch, by simp, rfl⟩
  | retry => exact .inr ⟨.submit .retry, by simp, rfl⟩
  | left h he => exact .inr ⟨.submit (.register false), by simp, by simp [Worker.act]⟩
  | moved h => exact .inr ⟨.advance, by simp, rfl⟩
  | gaveUp | missed | recorded | discarded | enqueued | pulled =>
    exact .inr ⟨.finish .done, by simp, by simp [Worker.act]⟩
  | _ => exact .inl (by simp)

namespace Steady

variable {r r' : Receiver σ} {a : Act}

theorem step (hr : Steady r) (h : Step r a r') : Steady r' := by
  constructor
  · obtain hw | ⟨b, -, hw⟩ := h.worker_eq
    · rw [hw]
      exact hr.sound
    · rw [hw]
      exact hr.sound.act b
  · obtain hw | ⟨b, hb, hw⟩ := h.worker_eq
    · rw [hw]
      exact hr.closed_eq
    · rw [hw]
      cases b <;> simp_all [Worker.act, hr.closed_eq]
  · have hc := hr.current_of_inFlight
    cases h with
    | moved h => simp_all
    | _ => simp_all

theorem after (hr : Steady r) (acts : List Act) : Steady (r.after acts) := by
  induction acts generalizing r with
  | nil => exact hr
  | cons a acts ih => exact ih (hr.step (step_act r a))

end Steady

end PushKeeper.Receiver
