import PushKeeper.Proofs.Worker.Accounts

namespace PushKeeper.Worker

variable {τ : Type}

def Act.isFinish : Act τ → Bool
  | finish _ => true
  | _ => false

def Act.isAdvance : Act τ → Bool
  | advance => true
  | _ => false

def Phase.stepsHome : Phase τ → Nat
  | waiting => 3
  | parked => 3
  | taking => 2
  | running _ => 3
  | rested => 1
  | stopped => 0

structure Leaving (w : Worker τ) : Prop where
  closed_eq : w.closed = true
  pending_eq : w.pending = none
  not_parked : w.phase ≠ .parked
  signal_of_waiting : w.phase = .waiting → w.signal = true

theorem leaving_close (w : Worker τ) : Leaving w.close := by
  cases hp : w.phase <;> constructor <;> simp [close, wake, hp]

namespace Leaving

variable {w : Worker τ}

theorem submit_eq (h : Leaving w) (task : τ) : w.submit task = w :=
  submit_of_closed task h.closed_eq

theorem advance (h : Leaving w) : Leaving w.advance := by
  obtain ⟨hc, hp, hne, hs⟩ := h
  -- only an open worker goes back to wait, and only one without a signal falls asleep there
  cases hph : w.phase <;> constructor <;> simp_all [Worker.advance]

theorem finish (h : Leaving w) (ending : Ending) : Leaving (w.finish ending) := by
  obtain ⟨hc, hp, hne, hs⟩ := h
  cases hph : w.phase <;> constructor <;> simp_all [Worker.finish]

theorem act (h : Leaving w) (a : Act τ) : Leaving (Worker.act a w) := by
  cases a with
  | submit task =>
    rw [Worker.act, h.submit_eq]
    exact h
  | advance => exact h.advance
  | finish ending => exact h.finish ending
  | close => exact leaving_close w

theorem after (h : Leaving w) (acts : List (Act τ)) : Leaving (w.after acts) :=
  Run.after_keeps h fun a _ _ hv => hv.act a

theorem advance_current? (h : Leaving w) : w.advance.current? = w.current? := by
  obtain ⟨hw, -⟩ | ⟨task, -, hp, -⟩ := advance_cases_of_closed fun _ => h.pending_eq
  · exact hw
  · rw [h.pending_eq] at hp
    cases hp

theorem act_current? (h : Leaving w) (a : Act τ) :
    (Worker.act a w).current? = if a.isFinish then none else w.current? := by
  cases a with
  | submit task => exact submit_current? task w
  | advance => exact h.advance_current?
  | finish ending => exact finish_current? w ending
  | close => exact close_current? w

theorem incidents_eq (h : Leaving w) (a : Act τ) :
    incidents a w = if a.isFinish then w.current?.toList.map .ended else [] := by
  cases a with
  | submit task => simp [incidents, h.closed_eq, Act.isFinish]
  | advance => cases hw : w.current? <;> simp [incidents, h.advance_current?, hw, Act.isFinish]
  | finish ending => rfl
  | close => simp [incidents, h.pending_eq, Act.isFinish]

theorem after_current? (h : Leaving w) (acts : List (Act τ)) :
    (w.after acts).current? = if acts.any Act.isFinish then none else w.current? := by
  induction acts using List.reverseRecOn with
  | nil => rfl
  | append_singleton acts a ih =>
    rw [after_concat, (h.after acts).act_current?, ih]
    cases ha : a.isFinish <;> cases hacts : acts.any Act.isFinish <;> simp [ha, hacts]

theorem journal_eq (h : Leaving w) (acts : List (Act τ)) :
    w.journal acts = (if acts.any Act.isFinish then w.current?.toList else []).map .ended := by
  induction acts using List.reverseRecOn with
  | nil => rfl
  | append_singleton acts a ih =>
    rw [journal_concat, ih, (h.after acts).incidents_eq, h.after_current?]
    cases ha : a.isFinish <;> cases hacts : acts.any Act.isFinish <;> simp [ha, hacts]

theorem stepsHome_act (h : Leaving w) (hw : w.current? = none) (a : Act τ) :
    (Worker.act a w).phase.stepsHome = w.phase.stepsHome - if a.isAdvance then 1 else 0 := by
  obtain ⟨hc, hp, hne, hs⟩ := h
  cases a with
  | submit task => simp [Worker.act, submit_of_closed task hc, Act.isAdvance]
  | advance =>
    cases hph : w.phase <;> simp_all [Worker.act, Worker.advance, Act.isAdvance, Phase.stepsHome, current?]
  | finish ending => cases hph : w.phase <;> simp_all [Worker.act, Worker.finish, Act.isAdvance, current?]
  | close => cases hph : w.phase <;> simp_all [Worker.act, close, wake, countDropped, Act.isAdvance]

theorem stepsHome_after (h : Leaving w) (hw : w.current? = none) (acts : List (Act τ)) :
    (w.after acts).phase.stepsHome = w.phase.stepsHome - acts.countP Act.isAdvance := by
  induction acts using List.reverseRecOn with
  | nil => rfl
  | append_singleton acts a ih =>
    have hnone : (w.after acts).current? = none := by simp [h.after_current?, hw]
    rw [after_concat, (h.after acts).stepsHome_act hnone, ih, List.countP_append, Nat.sub_sub]
    cases ha : a.isAdvance <;> simp [ha]

theorem stopped_after (h : Leaving w) (hw : w.current? = none) {acts : List (Act τ)}
    (hacts : [Act.advance, .advance, .advance].Sublist acts) : (w.after acts).phase = .stopped := by
  have hthree : [Act.advance, .advance, .advance].countP (@Act.isAdvance τ) ≤ acts.countP Act.isAdvance :=
    hacts.countP_le
  have hcount : [Act.advance, .advance, .advance].countP (@Act.isAdvance τ) = 3 := rfl
  have hbound : w.phase.stepsHome ≤ 3 := by cases w.phase <;> simp [Phase.stepsHome]
  have hzero : (w.after acts).phase.stepsHome = 0 := by
    rw [h.stepsHome_after hw]
    omega
  cases hp : (w.after acts).phase <;> simp_all [Phase.stepsHome]

end Leaving

theorem journal_close (w : Worker τ) (later : List (Act τ)) :
    w.journal (.close :: later) = w.pending.toList.map .dropped ++
      (if later.any Act.isFinish then w.current?.toList else []).map .ended := by
  rw [journal_cons, act, (leaving_close w).journal_eq, close_current?, incidents]

theorem seen_of_dropped_ended (dropped ended : List τ) :
    let j := dropped.map Incident.dropped ++ ended.map .ended
    submissions j = [] ∧ starts j = [] ∧ drops j = dropped ∧ ends j = ended := by
  simp [submissions, starts, drops, ends, List.filterMap_map, Function.comp_def, Incident.submitted?,
    Incident.started?, Incident.dropped?, Incident.ended?]

end PushKeeper.Worker
