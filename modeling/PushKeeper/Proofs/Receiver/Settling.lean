import PushKeeper.Proofs.Receiver.Conduct

namespace PushKeeper.Receiver

open Registration (Status)
open Store (Access KeyValueStore on_bind on_map)

variable {σ ε : Type}

/-- Every call is answered, by what is an answer to it, and the store is left alone. -/
def Attends (respond : Respond σ ε) : Prop :=
  ∀ (task : InFlight) s env, ∃ reply env',
    respond task.call s env = some (reply, s, env') ∧ task.fits reply

def InFlight.waits : InFlight → Nat
  | registering .. => 1
  | enqueuing _ => 2
  | pulling _ => 1

theorem InFlight.waits_le (task : InFlight) : task.waits ≤ 2 := by
  cases task <;> simp [waits]

/-- How many steps are left until the worker sleeps, at most. -/
def distance (r : Receiver σ) : Nat :=
  (if r.worker.pending.isSome then 4 else 0) + (if r.worker.signal then 3 else 0) +
    match r.worker.phase with
    | .waiting => 1
    | .parked => 0
    | .taking => 3
    | .running _ => 6 - (r.inFlight.elim 0 fun task => 3 - task.waits)
    | .rested => 2
    | .stopped => 0

theorem distance_le (r : Receiver σ) : r.distance ≤ settleBound := by
  unfold distance settleBound
  split <;> (try split) <;> split <;> simp <;> omega

section

variable {r r' : Receiver σ} {job : Job}

theorem phase_of_current (h : r.worker.current? = some job) : r.worker.phase = .running job := by
  unfold Worker.current? at h
  split at h
  · rw [← Option.some.inj h]
    assumption
  · simp at h

theorem distance_moved (hc : r.worker.current? = none) (hs : r.worker.isStill = false) :
    ({ r with worker := r.worker.advance } : Receiver σ).distance < r.distance := by
  cases hp : r.worker.phase with
  | waiting => cases hsig : r.worker.signal <;> simp [distance, Worker.advance, hp, hsig]
  | parked => simp [Worker.isStill, hp] at hs
  | taking =>
    cases hcl : r.worker.closed with
    | true =>
      simp only [distance, Worker.advance, hp, hcl, if_true, Option.isSome_none, Bool.false_eq_true,
        if_false]
      omega
    | false =>
      cases hq : r.worker.pending with
      | none => simp [distance, Worker.advance, hp, hcl, hq]
      | some task =>
        simp [distance, Worker.advance, hp, hcl, hq]
        omega
  | running task => simp [Worker.current?, hp] at hc
  | rested => cases hcl : r.worker.closed <;> simp [distance, Worker.advance, hp, hcl]
  | stopped => simp [Worker.isStill, hp] at hs

theorem distance_ended (hw : r.worker.current? = some job) (ending : Ending) (s : Receiver σ)
    (hs : s.worker = r.worker) :
    ({ s with inFlight := none, worker := s.worker.finish ending } : Receiver σ).distance <
      r.distance := by
  have hp := phase_of_current hw
  cases hf : r.inFlight with
  | none => simp [distance, Worker.finish, hs, hp, hf]
  | some task =>
    have := task.waits_le
    cases task <;> simp [distance, Worker.finish, hs, hp, hf, InFlight.waits]

theorem distance_awaiting (hw : r.worker.current? = some job) (task : InFlight) (s : Receiver σ)
    (hs : s.worker = r.worker) (hf : ∀ before, r.inFlight = some before → task.waits < before.waits) :
    ({ s with inFlight := some task } : Receiver σ).distance < r.distance := by
  have hp := phase_of_current hw
  have := task.waits_le
  cases hb : r.inFlight with
  | none =>
    simp only [distance, hs, hp, hb, Option.elim]
    omega
  | some before =>
    have := hf before hb
    have := before.waits_le
    simp only [distance, hs, hp, hb, Option.elim]
    omega

end

variable [KeyValueStore σ] {r r' : Receiver σ} {respond : Respond σ ε} {env env' : ε}

theorem endRegistration_ne (alerting : Bool) (outcome : Status) (r : Receiver σ) (task : InFlight) :
    ((endRegistration alerting outcome).on r).1 ≠ .ok (some task) := by
  rw [endRegistration, on_bind]
  rcases (onStore (Store.Values.recordOutcome outcome)).on r with ⟨_ | counts, r'⟩
  · simp
  · cases counts with
    | false => simp
    | true =>
      by_cases h : (alerting && outcome != .registered) = true <;>
        simp [on_bind, on_map, h]

theorem waits_resume {task task' : InFlight} {reply : Reply} (hf : task.fits reply)
    (h : ((task.resume reply).on r).1 = .ok (some task')) : task'.waits < task.waits := by
  cases task with
  | registering x alerting =>
    cases reply with
    | registered outcome => exact absurd h (endRegistration_ne alerting outcome r task')
    | enqueued answer => simp [InFlight.fits] at hf
    | pulled answer => simp [InFlight.fits] at hf
  | enqueuing strategy =>
    cases reply with
    | registered outcome => simp [InFlight.fits] at hf
    | enqueued answer =>
      obtain _ | _ | _ := answer <;>
        simp [InFlight.resume, Fetch.Progress.afterEnqueue, InFlight.ofFetch?] at h <;>
        simp [← h, InFlight.waits]
    | pulled answer => simp [InFlight.fits] at hf
  | pulling strategy =>
    cases reply with
    | registered outcome => simp [InFlight.fits] at hf
    | enqueued answer => simp [InFlight.fits] at hf
    | pulled answer => simp [InFlight.resume, Fetch.Progress.afterPull, InFlight.ofFetch?] at h

omit [KeyValueStore σ] in
theorem distance_perform {job : Job} {part : Access (Receiver σ) (Option InFlight)}
    (hq : Quiet part) (hw : r.worker.current? = some job)
    (hf : ∀ task before, (part.on r).1 = .ok (some task) → r.inFlight = some before →
      task.waits < before.waits) : (r.perform part).distance < r.distance := by
  obtain ⟨r', hr, ⟨task, ht, hp⟩ | ⟨ending, hp⟩⟩ := perform_cases hq r
  · rw [hp]
    exact distance_awaiting hw task r' hr.worker_eq fun before hb => hf task before ht hb
  · rw [hp]
    exact distance_ended hw ending r' hr.worker_eq

theorem distance_work (hs : r.isStill = false) (hf : r.inFlight = none) :
    (act .work r).distance < r.distance := by
  cases hc : r.worker.current? with
  | none =>
    rw [act_work_of_rest hc]
    exact distance_moved hc (by simpa [isStill, hc] using hs)
  | some job =>
    have ha : act .work r = r.perform job.start := by simp [act, advance, hc, hf]
    rw [ha]
    exact distance_perform (quiet_start job) hc fun task before _ hb => by simp [hf] at hb

theorem distance_answer (hr : Steady r) {task : InFlight} {reply : Reply}
    (hf : r.inFlight = some task) (h : task.fits reply) :
    (act (.answer reply) r).distance < r.distance := by
  obtain ⟨job, hc⟩ := Option.isSome_iff_exists.1 (hr.current_of_inFlight (by simp [hf]))
  have ha : act (.answer reply) r = r.perform (task.resume reply) := by simp [act, answer, hf]
  rw [ha]
  refine distance_perform (quiet_resume task reply) hc fun task' before ht hb => ?_
  obtain rfl : task = before := Option.some.inj (hf.symm.trans hb)
  exact waits_resume h ht

omit [KeyValueStore σ] in
theorem idle_of_isStill (hr : Steady r) (hf : r.inFlight = none) (hs : r.isStill) :
    r.worker.idle := by
  cases hp : r.worker.phase with
  | parked =>
    have hb := (hr.sound.not_busy_of_parked hp).1
    simpa [hr.sound.idle_eq] using hb
  | stopped =>
    have hc := hr.sound.closed_of_stopped hp
    simp [hr.closed_eq] at hc
  | _ => simp [isStill, Worker.isStill, Worker.current?, hp, hf] at hs

inductive Unasked (respond : Respond σ ε) (r : Receiver σ) (env : ε) : Act → ε → Prop
  | work (hf : r.inFlight = none) : Unasked respond r env .work env
  | answer {task : InFlight} {reply : Reply} {env' : ε} (hf : r.inFlight = some task)
      (h : task.fits reply) (hr : respond task.call r.store env = some (reply, r.store, env')) :
      Unasked respond r env (.answer reply) env'

omit [KeyValueStore σ] in
theorem Unasked.isRequest_eq {a : Act} (h : Unasked respond r env a env') : a.isRequest = false := by
  cases h <;> rfl

theorem step_cases (h : Attends respond) (hr : Steady r) (env : ε) :
    (r.step respond env = none ∧ r.worker.idle) ∨
      ∃ a env', Unasked respond r env a env' ∧ r.step respond env = some (act a r, env') ∧
        (act a r).distance < r.distance := by
  cases hf : r.inFlight with
  | some task =>
    obtain ⟨reply, env', hrep, hfit⟩ := h task r.store env
    refine .inr ⟨.answer reply, env', .answer hf hfit hrep, ?_, distance_answer hr hf hfit⟩
    have hc : r.call? = some task.call := by simp [call?, hf]
    simp only [step, hc, hrep, Option.map_some]
    rfl
  | none =>
    have hc : r.call? = none := by simp [call?, hf]
    by_cases hs : r.isStill
    · exact .inl ⟨by simp [step, hc, hs], idle_of_isStill hr hf hs⟩
    · rw [Bool.not_eq_true] at hs
      refine .inr ⟨.work, env, .work hf, ?_, distance_work hs hf⟩
      simp [step, hc, hs, act]

theorem settleWith_keeps {P : Receiver σ → ε → Prop} (h : Attends respond)
    (hstep : ∀ {r env a env'}, Steady r → Unasked respond r env a env' → P r env → P (act a r) env')
    (hr : Steady r) (hp : P r env) {fuel : Nat} (hd : r.distance ≤ fuel) :
    let p := r.settleWith respond fuel env
    P p.1 p.2 ∧ Steady p.1 ∧ p.1.worker.idle := by
  induction fuel generalizing r env with
  | zero =>
    obtain ⟨-, hi⟩ | ⟨a, env', -, -, hlt⟩ := step_cases h hr env
    · exact ⟨hp, hr, hi⟩
    · omega
  | succ fuel ih =>
    obtain ⟨hs, hi⟩ | ⟨a, env', ht, hs, hlt⟩ := step_cases h hr env
    · simpa [settleWith, hs] using ⟨hp, hr, hi⟩
    · have := ih (hr.act a) (hstep hr ht hp) (by omega)
      simpa [settleWith, hs] using this

theorem settle_keeps {P : Receiver σ → ε → Prop} (h : Attends respond)
    (hstep : ∀ {r env a env'}, Steady r → Unasked respond r env a env' → P r env → P (act a r) env')
    (hr : Steady r) (hp : P r env) :
    let p := r.settle respond env
    P p.1 p.2 ∧ Steady p.1 ∧ p.1.worker.idle :=
  settleWith_keeps h hstep hr hp r.distance_le

end PushKeeper.Receiver
