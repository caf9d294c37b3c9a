import PushKeeper.Proofs.Receiver.Run

namespace PushKeeper.Receiver

open Registration (Endpoint Status)
open Store (Faultless KeyValueStore)
open Store.Values

variable {σ : Type}

def Due (alerting : Bool) (r : Receiver σ) : Prop :=
  r.worker.pending = some (.register alerting) ∨
    (r.worker.current? = some (.register alerting) ∧ r.inFlight = none)

variable [KeyValueStore σ]

/-- A call of the relay begins. -/
def Contacts (a : Act) (r : Receiver σ) : Prop :=
  r.call? = none ∧ ∃ x, (act a r).call? = some (.register x)

variable [Faultless σ] {r r' r₀ : Receiver σ} {a : Act} {acts : List Act} {alerting : Bool}

/-- The relay is called before the mode is left. -/
def LeadsToContact (r : Receiver σ) : Prop :=
  ∃ more a, (∀ p, p <+: more → (r.after p).status = .airGapped) ∧ Contacts a (r.after more)

def SlipsPast (alerting : Bool) (a : Act) (r : Receiver σ) : Prop :=
  (a = .airGapped true ∨ a = .answer (.registered .airGapped)) ∧ r.status ≠ .airGapped ∧
    Due alerting r

/-- The relay was shut out while a registration waited, and neither has changed since. -/
def Slipped (r₀ : Receiver σ) (acts : List Act) (alerting : Bool) : Prop :=
  Run.Since act r₀ (SlipsPast alerting) (fun r => r.status = .airGapped ∧ Due alerting r) acts

theorem Step.eq_of_entered (h : Step r a r') (hs : r.status ≠ .airGapped)
    (hs' : r'.status = .airGapped) :
    a = .airGapped true ∨ a = .answer (.registered .airGapped) := by
  cases h with
  | entered h => exact .inl rfl
  | recorded hf h =>
    obtain rfl : _ = Status.airGapped := by simpa using hs'
    exact .inr rfl
  | _ => simp_all

theorem Due.of_step (hr : Steady r) (h : Step r a r') (hs : r'.status = .airGapped)
    (hd : Due alerting r') : Due alerting r := by
  have hc := hr.closed_eq
  obtain hp | ⟨hw, hf⟩ := hd
  · left
    cases h with
    | moved h =>
      obtain ⟨-, hp'⟩ | ⟨job, -, -, hj⟩ := Worker.advance_cases hc
      · exact hp' ▸ hp
      · simp [hj] at hp
    | _ => simp_all [Worker.submit_pending]
  · cases h with
    | moved h =>
      obtain ⟨hw', -⟩ | ⟨job, -, hj, hw'⟩ := Worker.advance_cases hc
      · exact .inr ⟨hw' ▸ hw, hf⟩
      · left
        simpa [hj, hw', Worker.current?] using hw
    | _ => right; simp_all

theorem Due.of_after (hr : Steady r) (hs : ∀ p, p <+: acts → (r.after p).status = .airGapped)
    (hd : Due alerting (r.after acts)) : Due alerting r := by
  induction acts generalizing r with
  | nil => exact hd
  | cons a acts ih =>
    have hstep := step_act r a
    refine of_step hr hstep (hs [a] (by simp)) (ih (hr.step hstep) ?_ hd)
    intro p hpre
    exact hs (a :: p) (List.cons_prefix_cons.2 ⟨rfl, hpre⟩)

theorem Step.due_of_contacts (h : Step r a r') (hs : r.status = .airGapped) (hc : r.call? = none)
    {x : Option Endpoint} (hc' : r'.call? = some (.register x)) : ∃ alerting, Due alerting r := by
  have hf : r.inFlight = none := by simpa [call?] using hc
  cases h with
  | @registering alerting h hf => exact ⟨alerting, .inr ⟨h, hf⟩⟩
  | _ => simp_all [call?, InFlight.call]

theorem slipped_of_due (hr : Steady r₀) (h0 : ∀ alerting, ¬ Due alerting r₀)
    (hs : (r₀.after acts).status = .airGapped) (hd : Due alerting (r₀.after acts)) :
    Slipped r₀ acts alerting := by
  induction acts using List.reverseRecOn with
  | nil => exact absurd hd (h0 alerting)
  | append_singleton acts a ih =>
    have hstep := step_concat r₀ acts a
    have hdue := hd.of_step (hr.after acts) hstep hs
    refine Run.since_concat_iff.2 ⟨⟨hs, hd⟩, ?_⟩
    by_cases hb : (r₀.after acts).status = .airGapped
    · exact .inr (ih hb hdue)
    · exact .inl ⟨hstep.eq_of_entered hb hs, hb, hdue⟩

namespace LeadsToContact

theorem of_act (hs : r.status = .airGapped) (h : LeadsToContact (act a r)) :
    LeadsToContact r := by
  obtain ⟨more, b, hp, hc⟩ := h
  refine ⟨a :: more, b, ?_, hc⟩
  intro p hpre
  cases p with
  | nil => exact hs
  | cons c p =>
    obtain ⟨rfl, hpre'⟩ := List.cons_prefix_cons.1 hpre
    exact hp p hpre'

theorem of_running (hs : r.status = .airGapped)
    (hw : r.worker.current? = some (.register alerting)) (hf : r.inFlight = none) :
    LeadsToContact r := by
  have ha : act .work r = r.await (.registering r.endpoint alerting) := by
    simp [act, advance, hw, hf, perform, Job.start, on_startRegistration, await]
  refine ⟨[], .work, ?_, by simp [call?, hf], r.endpoint, ?_⟩
  · intro p hpre
    rw [List.prefix_nil.1 hpre]
    exact hs
  · simp [ha, call?, InFlight.call]

theorem of_taking (hr : Steady r) (hs : r.status = .airGapped)
    (hp : r.worker.pending = some (.register alerting)) (hph : r.worker.phase = .taking) :
    LeadsToContact r := by
  have hw : r.worker.current? = none := by simp [Worker.current?, hph]
  have hf : r.inFlight = none := by simpa [hw] using hr.current_of_inFlight
  have hw' : r.worker.advance.current? = some (.register alerting) := by
    simp [Worker.advance, hph, hr.closed_eq, hp, Worker.current?]
  refine of_act (a := .work) hs ?_
  rw [act_work_of_rest hw]
  exact of_running hs hw' hf

theorem of_waiting (hr : Steady r) (hs : r.status = .airGapped)
    (hp : r.worker.pending = some (.register alerting)) (hph : r.worker.phase = .waiting) :
    LeadsToContact r := by
  have hw : r.worker.current? = none := by simp [Worker.current?, hph]
  have hsig : r.worker.signal :=
    hr.sound.signal_of_busy (.inl hph) (hr.sound.busy_of_pending (by simp [hp]))
  have hr' := hr.step (step_act r .work)
  refine of_act (a := .work) hs ?_
  rw [act_work_of_rest hw] at hr' ⊢
  apply of_taking hr' hs
  · simpa [Worker.advance, hph, hsig] using hp
  · simp [Worker.advance, hph, hsig]

theorem of_rested (hr : Steady r) (hs : r.status = .airGapped)
    (hp : r.worker.pending = some (.register alerting)) (hph : r.worker.phase = .rested) :
    LeadsToContact r := by
  have hw : r.worker.current? = none := by simp [Worker.current?, hph]
  have hr' := hr.step (step_act r .work)
  refine of_act (a := .work) hs ?_
  rw [act_work_of_rest hw] at hr' ⊢
  apply of_waiting hr' hs
  · simpa [Worker.advance, hph, hr.closed_eq] using hp
  · simp [Worker.advance, hph, hr.closed_eq]

theorem of_done (hr : Steady r.done) (hs : r.status = .airGapped)
    (hp : r.worker.pending = some (.register alerting)) (hw : r.worker.current?.isSome) :
    LeadsToContact r.done := by
  have hph : r.done.worker.phase = .taking := by
    cases h : r.worker.phase <;> simp_all [Worker.current?, Worker.finish]
  exact of_taking hr hs (by simpa using hp) hph

theorem of_inFlight (hr : Steady r) (hs : r.status = .airGapped)
    (hp : r.worker.pending = some (.register alerting)) (hf : r.inFlight.isSome) :
    LeadsToContact r := by
  have hw := hr.current_of_inFlight hf
  obtain ⟨task, hf⟩ := Option.isSome_iff_exists.1 hf
  obtain ⟨reply, ha⟩ : ∃ reply, act (.answer reply) r = r.done := by
    cases task with
    | registering x alerting' =>
      refine ⟨.registered .registered, ?_⟩
      simp [act, answer, hf, perform, InFlight.resume, on_endRegistration, hs, done]
    | enqueuing strategy => exact ⟨.enqueued (.ok true), by simp [act, answer, hf]; rfl⟩
    | pulling strategy => exact ⟨.pulled (.ok ()), by simp [act, answer, hf]; rfl⟩
  have hr' := hr.step (step_act r (.answer reply))
  refine of_act (a := .answer reply) hs ?_
  rw [ha] at hr' ⊢
  exact of_done hr' hs hp hw

theorem of_starting {job : Job} (hr : Steady r) (hs : r.status = .airGapped)
    (hp : r.worker.pending = some (.register alerting)) (hw : r.worker.current? = some job)
    (hf : r.inFlight = none) : LeadsToContact r := by
  have hr' := hr.step (step_act r .work)
  cases job with
  | register alerting' => exact of_running hs hw hf
  | retry =>
    have ha : act .work r = r.done := by
      simp [act, advance, hw, hf, perform, Job.start, on_startRetry, hs, done]
    refine of_act (a := .work) hs ?_
    rw [ha] at hr' ⊢
    exact of_done hr' hs hp (by simp [hw])
  | fetch =>
    have ha : act .work r = r.stamped.await (.enqueuing r.nextStrategy) := by
      simp [act, advance, hw, hf]
      rfl
    refine of_act (a := .work) hs ?_
    rw [ha] at hr' ⊢
    exact of_inFlight hr' (by simpa using hs) (by simpa using hp) (by simp)

theorem of_due (hr : Steady r) (hs : r.status = .airGapped) (hd : Due alerting r) :
    LeadsToContact r := by
  obtain hp | ⟨hw, hf⟩ := hd
  · cases hph : r.worker.phase with
    | waiting => exact of_waiting hr hs hp hph
    | parked =>
      have hb := hr.sound.busy_of_pending (by simp [hp])
      exact absurd hb (hr.sound.not_busy_of_parked hph).1
    | taking => exact of_taking hr hs hp hph
    | running job =>
      cases hf : r.inFlight with
      | none =>
        have hw : r.worker.current? = some job := by simp [Worker.current?, hph]
        exact of_starting hr hs hp hw hf
      | some task => exact of_inFlight hr hs hp (by simp [hf])
    | rested => exact of_rested hr hs hp hph
    | stopped =>
      have hc := hr.sound.closed_of_stopped hph
      simp [hr.closed_eq] at hc
  · exact of_running hs hw hf

end LeadsToContact

/-- While the relay is shut out, a call of it is still to come if and only if a registration has
waited since before it was shut out. -/
theorem leadsToContact_iff_slipped (name : String) (s : σ) (clock : UInt64)
    (policy : Fetch.Policy) (delivery : Fetch.Delivery) (acts : List Act)
    (hs : ((new name s clock policy delivery).after acts).status = .airGapped) :
    LeadsToContact ((new name s clock policy delivery).after acts) ↔
      ∃ alerting, Slipped (new name s clock policy delivery) acts alerting := by
  have hr₀ := steady_new name s clock policy delivery
  have hd₀ : ∀ alerting, ¬ Due alerting (new name s clock policy delivery) := by
    simp [Due, new, Worker.new, Worker.current?]
  generalize new name s clock policy delivery = r₀ at hs hr₀ hd₀ ⊢
  constructor
  · rintro ⟨more, a, hp, hc, x, hx⟩
    obtain ⟨alerting, hd⟩ :=
      (step_act ((r₀.after acts).after more) a).due_of_contacts (hp more List.prefix_rfl) hc hx
    exact ⟨alerting, slipped_of_due hr₀ hd₀ hs (hd.of_after (hr₀.after acts) hp)⟩
  · rintro ⟨alerting, hslip⟩
    exact .of_due (hr₀.after acts) hs hslip.last.2

/-- The relay is shut out right after an endpoint came: the call for it is made all the same, because
its registration waited by then. -/
theorem slipped_of_new_endpoint :
    let r := new "registration" (putStatus .registered Store.Entries.empty) 0 default (.fixed true)
    let acts : List Act := [.handle (.newEndpoint ⟨"A"⟩ "default"), .airGapped true]
    (r.after acts).status = .airGapped ∧ LeadsToContact (r.after acts) ∧
      ∃ alerting, Slipped r acts alerting := by
  intro r acts
  have hs : (r.after acts).status = .airGapped := by decide +kernel
  have hp : (r.after acts).worker.pending = some (.register true) := by decide +kernel
  have hl := LeadsToContact.of_due ((steady_new _ _ _ _ _).after acts) hs (.inl hp)
  exact ⟨hs, hl, (leadsToContact_iff_slipped _ _ _ _ _ acts hs).1 hl⟩

/-- The call begins although the stored status is that the relay is shut out. -/
theorem contacts_while_airGapped :
    let r := new "registration" (putStatus .registered Store.Entries.empty) 0 default (.fixed true)
    let r := r.after [.handle (.newEndpoint ⟨"A"⟩ "default"), .airGapped true, .work, .work]
    r.status = .airGapped ∧ Contacts .work r := by
  intro r₀ r
  have hc : (act .work r).call? = some (.register (some ⟨"A"⟩)) := by decide +kernel
  have hs : r.status = .airGapped := by decide +kernel
  have hn : r.call? = none := by decide +kernel
  exact ⟨hs, hn, some ⟨"A"⟩, hc⟩

end PushKeeper.Receiver
