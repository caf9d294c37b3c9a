import PushKeeper.Worker.Basic
import PushKeeper.Proofs.Run

namespace PushKeeper.Worker

variable {τ : Type}

/-- What can happen to a worker. -/
inductive Act (τ : Type)
  | submit (task : τ)
  | advance
  | finish (ending : Ending)
  | close
  deriving DecidableEq

def act : Act τ → Worker τ → Worker τ
  | .submit task, w => w.submit task
  | .advance, w => w.advance
  | .finish ending, w => w.finish ending
  | .close, w => w.close

inductive Incident (τ : Type)
  | submitted (task : τ)
  | dropped (task : τ)
  | started (task : τ)
  | ended (task : τ)
  deriving DecidableEq

/-- What is seen when something happens. A task that waits is dropped when another takes its place,
and it starts when the worker that had none is at it. -/
def incidents : Act τ → Worker τ → List (Incident τ)
  | .submit task, w =>
    if w.closed then [] else w.pending.toList.map .dropped ++ [.submitted task]
  | .advance, w =>
    if w.current?.isSome then [] else w.advance.current?.toList.map .started
  | .finish _, w => w.current?.toList.map .ended
  | .close, w => w.pending.toList.map .dropped

def after (w : Worker τ) (acts : List (Act τ)) : Worker τ :=
  Run.after act w acts

def journal (w : Worker τ) (acts : List (Act τ)) : List (Incident τ) :=
  Run.notes act incidents w acts

@[simp] theorem after_nil (w : Worker τ) : w.after [] = w := rfl

@[simp] theorem after_concat (w : Worker τ) (acts : List (Act τ)) (a : Act τ) :
    w.after (acts ++ [a]) = act a (w.after acts) := by
  simp [after]

@[simp] theorem journal_nil (w : Worker τ) : w.journal [] = [] := rfl

@[simp] theorem journal_concat (w : Worker τ) (acts : List (Act τ)) (a : Act τ) :
    w.journal (acts ++ [a]) = w.journal acts ++ incidents a (w.after acts) := by
  simp [journal, after]

/-- What holds of a worker at any time. -/
structure Sound (w : Worker τ) : Prop where
  idle_eq : w.idle = !w.busy
  busy_of_pending : w.pending.isSome → w.busy
  busy_of_current : w.current?.isSome → w.busy
  signal_of_busy : w.phase = .waiting ∨ w.phase = .rested → w.busy → w.signal
  not_busy_of_parked : w.phase = .parked → ¬ w.busy ∧ ¬ w.signal
  closed_of_stopped : w.phase = .stopped → w.closed

theorem sound_new (name : String) : Sound (new name : Worker τ) := by
  constructor <;> simp [new, current?]

section

variable {w : Worker τ} (task : τ)

theorem submit_of_closed (h : w.closed = true) : w.submit task = w := by
  simp [submit, h]

theorem submit_of_busy (hc : w.closed = false) (hb : w.busy = true) :
    w.submit task = { w.countDropped with pending := some task } := by
  simp [submit, hc, hb]

theorem submit_of_not_busy (hc : w.closed = false) (hb : w.busy = false) :
    w.submit task =
      { w.countDropped with pending := some task, busy := true, idle := false }.wake := by
  simp [submit, hc, hb]

@[simp] theorem wake_current? (w : Worker τ) : w.wake.current? = w.current? := by
  cases h : w.phase <;> simp [wake, current?, h]

@[simp] theorem submit_closed (w : Worker τ) : (w.submit task).closed = w.closed := by
  cases hc : w.closed <;> cases hb : w.busy <;> simp [submit, hc, hb]

@[simp] theorem submit_current? (w : Worker τ) : (w.submit task).current? = w.current? := by
  cases hc : w.closed <;> cases hb : w.busy <;> simp [submit, hc, hb] <;> simp [current?]

theorem submit_pending (hc : w.closed = false) : (w.submit task).pending = some task := by
  cases hb : w.busy <;> simp [submit, hc, hb]

@[simp] theorem finish_closed (w : Worker τ) (ending : Ending) :
    (w.finish ending).closed = w.closed := by
  unfold finish; split <;> rfl

@[simp] theorem finish_pending (w : Worker τ) (ending : Ending) :
    (w.finish ending).pending = w.pending := by
  unfold finish; split <;> rfl

@[simp] theorem finish_current? (w : Worker τ) (ending : Ending) :
    (w.finish ending).current? = none := by
  cases h : w.phase <;> simp [finish, current?, h]

@[simp] theorem advance_closed (w : Worker τ) : w.advance.closed = w.closed := by
  unfold advance; split <;> try rfl
  all_goals split <;> try rfl
  split <;> rfl

theorem closed_after {acts : List (Act τ)} (hc : w.closed = false) (ha : .close ∉ acts) :
    (w.after acts).closed = false := by
  refine Run.after_keeps (P := fun w : Worker τ => w.closed = false) hc ?_
  intro a hmem w hc
  cases a with
  | submit task => simpa [act] using hc
  | advance => simpa [act] using hc
  | finish ending => simpa [act] using hc
  | close => exact absurd hmem ha

theorem advance_cases_of_closed (hc : w.closed → w.pending = none) :
    (w.advance.current? = w.current? ∧ w.advance.pending = w.pending) ∨
      ∃ task, w.phase = .taking ∧ w.pending = some task ∧
        w.advance = { w with pending := none, phase := .running task } := by
  cases hp : w.phase with
  | taking =>
    cases hq : w.pending with
    | none => left; cases hcl : w.closed <;> simp [advance, current?, hp, hcl, hq]
    | some task =>
      have hcl : w.closed = false := by simpa [hq] using hc
      right
      exact ⟨task, rfl, rfl, by simp [advance, hp, hcl, hq]⟩
  | waiting => left; cases hs : w.signal <;> simp [advance, current?, hp, hs]
  | rested => left; cases hcl : w.closed <;> simp [advance, current?, hp, hcl]
  | parked => left; simp [advance, current?, hp]
  | running task => left; simp [advance, current?, hp]
  | stopped => left; simp [advance, current?, hp]

theorem advance_cases (hc : w.closed = false) :
    (w.advance.current? = w.current? ∧ w.advance.pending = w.pending) ∨
      ∃ task, w.phase = .taking ∧ w.pending = some task ∧
        w.advance = { w with pending := none, phase := .running task } :=
  advance_cases_of_closed (by simp [hc])

end

namespace Sound

variable {w : Worker τ}

theorem wake (h1 : w.idle = !w.busy) (h2 : w.pending.isSome → w.busy)
    (h3 : w.current?.isSome → w.busy) (h6 : w.phase = .stopped → w.closed) : Sound w.wake := by
  cases hp : w.phase <;> constructor <;> simp_all [Worker.wake, current?]

theorem submit (h : Sound w) (task : τ) : Sound (w.submit task) := by
  obtain ⟨h1, h2, h3, h4, h5, h6⟩ := h
  cases hc : w.closed with
  | true => rw [submit_of_closed task hc]; exact ⟨h1, h2, h3, h4, h5, h6⟩
  | false =>
    cases hb : w.busy with
    | true =>
      rw [submit_of_busy task hc hb]
      constructor <;> simp_all [current?]
    | false =>
      rw [submit_of_not_busy task hc hb]
      apply wake <;> simp_all [current?]

theorem close (h : Sound w) : Sound w.close := by
  obtain ⟨h1, h2, h3, h4, h5, h6⟩ := h
  apply wake <;> simp_all [current?]

theorem finish (h : Sound w) (ending : Ending) : Sound (w.finish ending) := by
  obtain ⟨h1, h2, h3, h4, h5, h6⟩ := h
  cases hp : w.phase <;> constructor <;> simp_all [Worker.finish, current?]

theorem advance (h : Sound w) : Sound w.advance := by
  obtain ⟨h1, h2, h3, h4, h5, h6⟩ := h
  cases hp : w.phase with
  | waiting => cases hs : w.signal <;> constructor <;> simp_all [Worker.advance, current?]
  | taking =>
    cases hc : w.closed <;> cases hq : w.pending <;>
      constructor <;> simp_all [Worker.advance, current?]
  | rested => cases hc : w.closed <;> constructor <;> simp_all [Worker.advance, current?]
  | parked => constructor <;> simp_all [Worker.advance, current?]
  | running task => constructor <;> simp_all [Worker.advance, current?]
  | stopped => constructor <;> simp_all [Worker.advance, current?]

theorem act (h : Sound w) (a : Act τ) : Sound (Worker.act a w) := by
  cases a with
  | submit task => exact h.submit task
  | advance => exact h.advance
  | finish ending => exact h.finish ending
  | close => exact h.close

theorem after (h : Sound w) (acts : List (Act τ)) : Sound (w.after acts) := by
  induction acts using List.reverseRecOn with
  | nil => exact h
  | append_singleton acts a ih => rw [after_concat]; exact ih.act a

theorem rest_of_idle (h : Sound w) (hi : w.idle) : w.pending = none ∧ w.current? = none := by
  have hb : w.busy = false := by simpa [hi] using h.idle_eq
  constructor
  · by_contra hp
    have := h.busy_of_pending (Option.isSome_iff_ne_none.2 hp)
    simp [hb] at this
  · by_contra hc
    have := h.busy_of_current (Option.isSome_iff_ne_none.2 hc)
    simp [hb] at this

end Sound

end PushKeeper.Worker
