import PushKeeper.Proofs.Worker.Run

namespace PushKeeper.Worker

variable {τ υ : Type}

def Phase.map (f : τ → υ) : Phase τ → Phase υ
  | waiting => .waiting
  | parked => .parked
  | taking => .taking
  | running task => .running (f task)
  | rested => .rested
  | stopped => .stopped

def map (f : τ → υ) (w : Worker τ) : Worker υ :=
  { w with pending := w.pending.map f, phase := w.phase.map f }

def Act.map (f : τ → υ) : Act τ → Act υ
  | submit task => .submit (f task)
  | advance => .advance
  | finish ending => .finish ending
  | close => .close

def Incident.map (f : τ → υ) : Incident τ → Incident υ
  | submitted task => .submitted (f task)
  | dropped task => .dropped (f task)
  | started task => .started (f task)
  | ended task => .ended (f task)

section

variable (f : τ → υ) (w : Worker τ)

@[simp] theorem map_pending : (w.map f).pending = w.pending.map f := rfl

@[simp] theorem map_closed : (w.map f).closed = w.closed := rfl

@[simp] theorem map_current? : (w.map f).current? = w.current?.map f := by
  cases h : w.phase <;> simp [map, current?, Phase.map, h]

theorem map_countDropped : w.countDropped.map f = (w.map f).countDropped := by
  cases h : w.pending <;> simp [map, countDropped, h]

theorem map_wake : w.wake.map f = (w.map f).wake := by
  cases h : w.phase <;> simp [map, wake, Phase.map, h]

theorem map_submit (task : τ) : (w.submit task).map f = (w.map f).submit (f task) := by
  cases hc : w.closed with
  | true => rw [submit_of_closed task hc, submit_of_closed (f task) hc]
  | false =>
    cases hb : w.busy with
    | true =>
      rw [submit_of_busy task hc hb, submit_of_busy (f task) hc hb, ← map_countDropped]
      rfl
    | false =>
      rw [submit_of_not_busy task hc hb, submit_of_not_busy (f task) hc hb, map_wake,
        ← map_countDropped]
      rfl

theorem map_advance : w.advance.map f = (w.map f).advance := by
  cases hp : w.phase with
  | waiting => cases hs : w.signal <;> simp [map, advance, Phase.map, hp, hs]
  | taking =>
    cases hc : w.closed <;> cases hq : w.pending <;> simp [map, advance, Phase.map, hp, hc, hq]
  | rested => cases hc : w.closed <;> simp [map, advance, Phase.map, hp, hc]
  | parked | running | stopped => simp [map, advance, Phase.map, hp]

theorem map_finish (ending : Ending) : (w.finish ending).map f = (w.map f).finish ending := by
  cases h : w.phase <;> simp [map, finish, Phase.map, h]

theorem map_close : w.close.map f = (w.map f).close := by
  rw [close, close, map_wake, ← map_countDropped]
  rfl

theorem map_act (a : Act τ) : (act a w).map f = act (a.map f) (w.map f) := by
  cases a with
  | submit task => exact map_submit f w task
  | advance => exact map_advance f w
  | finish ending => exact map_finish f w ending
  | close => exact map_close f w

theorem map_incidents (a : Act τ) :
    (incidents a w).map (Incident.map f) = incidents (a.map f) (w.map f) := by
  cases a with
  | submit task =>
    cases hc : w.closed <;> cases hp : w.pending <;> simp [incidents, Act.map, Incident.map, hc, hp]
  | advance =>
    cases hw : w.current? <;> cases ha : w.advance.current? <;>
      simp [incidents, Act.map, Incident.map, ← map_advance, hw, ha]
  | finish ending => cases hw : w.current? <;> simp [incidents, Act.map, Incident.map, hw]
  | close => cases hp : w.pending <;> simp [incidents, Act.map, Incident.map, hp]

theorem map_after (acts : List (Act τ)) :
    (w.after acts).map f = (w.map f).after (acts.map (Act.map f)) := by
  exact Run.after_map (fun a v => map_act f v a) w acts

end

def line (w : Worker τ) : List τ := w.current?.toList ++ w.pending.toList

section

variable {w : Worker τ}

theorem line_submit_sublist (hc : w.closed = false) (task : τ) :
    (w.submit task).line.Sublist (w.line ++ [task]) := by
  rw [line, line, submit_current?, submit_pending task hc, List.append_assoc]
  exact (List.sublist_append_right _ _).append_left _

theorem line_advance (hc : w.closed = false) : w.advance.line = w.line := by
  obtain ⟨hw, hp⟩ | ⟨task, hp, hq, ha⟩ := advance_cases hc
  · rw [line, line, hw, hp]
  · simp [line, ha, hq, current?, hp]

theorem line_finish (w : Worker τ) (ending : Ending) :
    w.line = w.current?.toList ++ (w.finish ending).line := by
  simp [line]

end

end PushKeeper.Worker
