import PushKeeper.Proofs.Worker.Accounts
import PushKeeper.Proofs.Worker.Labels
import PushKeeper.Worker.Attendance

namespace PushKeeper.Worker

variable {κ δ : Type}

/-- What a task has still to do, and how it ends. Among what it does is to submit other tasks. -/
inductive Course (κ δ : Type)
  | ends (outcome : Outcome)
  | doing (deed : δ) (rest : Course κ δ)
  | submitting (name : κ) (course rest : Course κ δ)
  deriving DecidableEq

abbrev Task (κ δ : Type) := κ × Course κ δ

inductive Move (κ δ : Type)
  | submit (task : Task κ δ)
  | advance
  | proceed
  | close
  deriving DecidableEq

def setOff (task : Task κ δ) (w : Worker (Task κ δ)) : Worker (Task κ δ) :=
  { w with phase := .running task }

def goOn (ended : Outcome → Worker (Task κ δ)) (w : Worker (Task κ δ)) : Worker (Task κ δ) :=
  match w.current? with
  | none => w
  | some (_, .ends outcome) => ended outcome
  | some (name, .doing _ rest) => w.setOff (name, rest)
  | some (name, .submitting other course rest) => (w.setOff (name, rest)).submit (other, course)

def move : Move κ δ → Worker (Task κ δ) → Worker (Task κ δ)
  | .submit task, w => w.submit task
  | .advance, w => w.advance
  | .close, w => w.close
  | .proceed, w => w.goOn fun outcome => (w.conclude outcome).2

namespace Move

def incidents : Move κ δ → Worker (Task κ δ) → List (Incident κ)
  | submit task, w => (Worker.incidents (.submit task) w).map (Incident.map Prod.fst)
  | advance, w => (Worker.incidents .advance w).map (Incident.map Prod.fst)
  | close, w => (Worker.incidents .close w).map (Incident.map Prod.fst)
  | proceed, w =>
    match w.current? with
    | some (name, .ends _) => [.ended name]
    | some (_, .submitting other course _) =>
      (Worker.incidents (.submit (other, course)) w).map (Incident.map Prod.fst)
    | _ => []

def deed? : Move κ δ → Worker (Task κ δ) → Option δ
  | proceed, w =>
    match w.current? with
    | some (_, .doing deed _) => some deed
    | _ => none
  | _, _ => none

/-- A task ends, and letting go of what is left of it panics. -/
def bursts : Move κ δ → Worker (Task κ δ) → Bool
  | proceed, w =>
    match w.current? with
    | some (_, .ends outcome) => outcome.bursts
    | _ => false
  | _, _ => false

end Move

def bursts (w : Worker (Task κ δ)) (moves : List (Move κ δ)) : List Bool :=
  Run.notes move (fun m w => [m.bursts w]) w moves

/-- The same course with other outcomes, also of the tasks that it submits. -/
def Course.map (f : Outcome → Outcome) : Course κ δ → Course κ δ
  | ends outcome => .ends (f outcome)
  | doing deed rest => .doing deed (rest.map f)
  | submitting name course rest => .submitting name (course.map f) (rest.map f)

def Task.map (f : Outcome → Outcome) : Task κ δ → Task κ δ := Prod.map id (Course.map f)

def Move.map (f : Outcome → Outcome) : Move κ δ → Move κ δ
  | submit task => .submit (Task.map f task)
  | advance => .advance
  | proceed => .proceed
  | close => .close

/-- A good end, and all else as it was: letting go of what is left is something that a task does. -/
def Outcome.plain (o : Outcome) : Outcome := { o with ending := .done }

/-- Nothing of an outcome, not even whether letting go of what is left panics. -/
def Outcome.bare (_ : Outcome) : Outcome := ⟨.done, false⟩

/-- What is seen of a move, and of the worker after it. How the task that waits is going to end is not seen. -/
structure View (κ δ : Type) where
  incidents : List (Incident κ)
  deed : Option δ
  idle : Bool
  completed : UInt64
  dropped : UInt64
  pending : Option (Task κ δ)
  deriving DecidableEq

def Move.view (m : Move κ δ) (w after : Worker (Task κ δ)) : View κ δ where
  incidents := m.incidents w
  deed := m.deed? w
  idle := after.idle
  completed := after.completed
  dropped := after.dropped
  pending := after.pending.map (Task.map .bare)

def views (w : Worker (Task κ δ)) (moves : List (Move κ δ)) : List (View κ δ) :=
  Run.notes move (fun m w => [m.view w (move m w)]) w moves

theorem Course.map_map (f g : Outcome → Outcome) (c : Course κ δ) : (c.map f).map g = c.map (g ∘ f) := by
  induction c with
  | ends outcome => rfl
  | doing deed rest ih => rw [map, map, map, ih]
  | submitting name course rest ihc ihr => rw [map, map, map, ihc, ihr]

theorem Task.map_bare (f : Outcome → Outcome) (task : Task κ δ) :
    Task.map .bare (Task.map f task) = Task.map .bare task :=
  Prod.ext rfl (Course.map_map f .bare task.2)

/-- What a move comes to, if it is said of a task that ends whether it bursts. -/
def moveWith (b : Bool) : Move κ δ → Worker (Task κ δ) → Worker (Task κ δ)
  | .proceed, w => w.goOn fun _ => if b then w.collapse else w.finish .done
  | m, w => move m w

section

variable (m : Move κ δ) (w : Worker (Task κ δ)) (b : Bool) (f : Outcome → Outcome)

theorem move_eq : move m w = moveWith (m.bursts w) m w := by
  cases m with
  | proceed =>
    rw [move, moveWith, Move.bursts, goOn, goOn]
    rcases w.current? with _ | ⟨name, outcome | _ | _⟩
    · rfl
    · exact conclude_eq outcome w
    · rfl
    · rfl
  | _ => rfl

theorem map_collapse {τ υ : Type} (f : τ → υ) (w : Worker τ) : w.collapse.map f = (w.map f).collapse := by
  cases h : w.phase <;> simp [map, collapse, Phase.map, h]

theorem map_moveWith :
    (moveWith b m w).map (Task.map f) = moveWith b (m.map f) (w.map (Task.map f)) := by
  cases m with
  | submit task => exact map_submit (Task.map f) w task
  | advance => exact map_advance (Task.map f) w
  | close => exact map_close (Task.map f) w
  | proceed =>
    rw [Move.map, moveWith, moveWith, goOn, goOn, map_current?]
    rcases w.current? with _ | ⟨name, _ | _ | ⟨other, course, rest⟩⟩
    · rfl
    · cases b
      · exact map_finish (Task.map f) w .done
      · exact map_collapse (Task.map f) w
    · rfl
    · exact map_submit (Task.map f) (w.setOff (name, rest)) (other, course)

theorem incidents_map : (m.map f).incidents (w.map (Task.map f)) = m.incidents w := by
  have hmap (a : Act (Task κ δ)) :
      (incidents (a.map (Task.map f)) (w.map (Task.map f))).map (Incident.map Prod.fst) =
        (incidents a w).map (Incident.map Prod.fst) := by
    rw [← map_incidents, List.map_map]
    refine List.map_congr_left fun i _ => ?_
    cases i <;> rfl
  cases m with
  | submit task => exact hmap (.submit task)
  | advance => exact hmap .advance
  | close => exact hmap .close
  | proceed =>
    rw [Move.map, Move.incidents, Move.incidents, map_current?]
    rcases w.current? with _ | ⟨name, _ | _ | ⟨other, course, rest⟩⟩
    · rfl
    · rfl
    · rfl
    · exact hmap (.submit (other, course))

theorem deed?_map : (m.map f).deed? (w.map (Task.map f)) = m.deed? w := by
  cases m with
  | proceed =>
    rw [Move.map, Move.deed?, Move.deed?, map_current?]
    rcases w.current? with _ | ⟨name, _ | _ | _⟩ <;> rfl
  | _ => rfl

theorem bursts_map_plain : (m.map .plain).bursts (w.map (Task.map .plain)) = m.bursts w := by
  cases m with
  | proceed =>
    rw [Move.map, Move.bursts, Move.bursts, map_current?]
    rcases w.current? with _ | ⟨name, _ | _ | _⟩ <;> rfl
  | _ => rfl

theorem view_map (after : Worker (Task κ δ)) :
    (m.map f).view (w.map (Task.map f)) (after.map (Task.map f)) = m.view w after := by
  have hpending : (after.pending.map (Task.map f)).map (Task.map .bare) =
      after.pending.map (Task.map .bare) := by
    rw [Option.map_map]
    exact Option.map_congr fun task _ => Task.map_bare f task
  rw [Move.view, Move.view, incidents_map, deed?_map, map_pending, hpending]
  rfl

theorem map_plain_move :
    (move m w).map (Task.map .plain) = move (m.map .plain) (w.map (Task.map .plain)) := by
  rw [move_eq, map_moveWith, move_eq, bursts_map_plain]

end

section

variable {m m' : Move κ δ} {w w' : Worker (Task κ δ)}

theorem completed_moveWith_ne (hb : m.bursts w = true) :
    (moveWith true m w).completed ≠ (moveWith false m w).completed := by
  cases m with
  | proceed =>
    rw [moveWith, moveWith, goOn, goOn]
    rw [Move.bursts] at hb
    cases hp : w.phase with
    | running task =>
      obtain ⟨name, outcome | _ | _⟩ := task
      · simp [current?, collapse, finish, hp]
      all_goals simp [current?, hp] at hb
    | _ => simp [current?, hp] at hb
  | _ => cases hb

theorem view_eq_iff (hm : m.map .bare = m'.map .bare) (hw : w.map (Task.map .bare) = w'.map (Task.map .bare)) :
    m.view w (move m w) = m'.view w' (move m' w') ↔ m.bursts w = m'.bursts w' := by
  have hbare (b : Bool) : m.view w (moveWith b m w) = m'.view w' (moveWith b m' w') := by
    rw [← view_map m w .bare, ← view_map m' w' .bare, map_moveWith, map_moveWith, hm, hw]
  rw [move_eq m w, move_eq m' w']
  constructor
  · intro hview
    by_contra hne
    cases hb : m.bursts w with
    | true =>
      have hb' : m'.bursts w' = false := by simpa [hb] using hne
      rw [hb, hb', ← hbare] at hview
      exact completed_moveWith_ne hb (congrArg View.completed hview)
    | false =>
      have hb' : m'.bursts w' = true := by simpa [hb] using hne
      rw [hb, hb', hbare] at hview
      exact completed_moveWith_ne hb' (congrArg View.completed hview).symm
  · intro hb
    rw [hb, hbare]

theorem map_bare_move_eq (hm : m.map .bare = m'.map .bare)
    (hw : w.map (Task.map .bare) = w'.map (Task.map .bare)) (hb : m.bursts w = m'.bursts w') :
    (move m w).map (Task.map .bare) = (move m' w').map (Task.map .bare) := by
  rw [move_eq, move_eq m', map_moveWith, map_moveWith, hm, hw, hb]

theorem views_eq_iff {moves moves' : List (Move κ δ)}
    (h : moves.map (Move.map .bare) = moves'.map (Move.map .bare))
    (hw : w.map (Task.map .bare) = w'.map (Task.map .bare)) :
    views w moves = views w' moves' ↔ bursts w moves = bursts w' moves' := by
  induction moves generalizing moves' w w' with
  | nil =>
    obtain rfl : moves' = [] := by simpa using h.symm
    exact ⟨fun _ => rfl, fun _ => rfl⟩
  | cons m moves ih =>
    obtain ⟨m', moves', rfl, hm, hmoves⟩ := List.map_eq_cons_iff.1 h.symm
    have hstep := view_eq_iff hm.symm hw
    simp only [views, bursts, Run.notes, List.singleton_append, List.cons.injEq, hstep]
    exact and_congr_right fun hb => ih hmoves.symm (map_bare_move_eq hm.symm hw hb)

end

theorem views_map_plain (w : Worker (Task κ δ)) (moves : List (Move κ δ)) :
    views w moves = views (w.map (Task.map .plain)) (moves.map (Move.map .plain)) := by
  refine Run.notes_map map_plain_move (fun m w => ?_) w moves
  rw [← map_plain_move, view_map]

structure Gone {τ : Type} (w : Worker τ) : Prop where
  stopped : w.phase = .stopped
  busy : w.busy = true

namespace Gone

variable {τ : Type} {w : Worker τ}

theorem of_conclude {o : Outcome} (ho : o.bursts = true) (hw : w.current?.isSome) (hbusy : w.busy = true) :
    Gone (w.conclude o).2 ∧ (w.conclude o).2.completed = w.completed ∧ (w.conclude o).2.idle = w.idle := by
  rw [conclude_eq, if_pos ho, collapse]
  cases hp : w.phase with
  | running task => exact ⟨⟨rfl, hbusy⟩, rfl, rfl⟩
  | _ => simp [current?, hp] at hw

theorem act (h : Gone w) (a : Act τ) : Gone (act a w) ∧ (Worker.act a w).completed = w.completed ∧
    (Worker.act a w).idle = w.idle := by
  obtain ⟨hstopped, hbusy⟩ := h
  cases a with
  | submit task =>
    refine ⟨?_, submit_completed w task, ?_⟩
    · cases hc : w.closed <;> constructor <;> simp [Worker.act, submit, hc, hstopped, hbusy]
    · cases hc : w.closed <;> simp [Worker.act, submit, hc, hbusy]
  | advance =>
    have hadvance : w.advance = w := by rw [advance, hstopped]
    rw [Worker.act, hadvance]
    exact ⟨⟨hstopped, hbusy⟩, rfl, rfl⟩
  | finish ending =>
    have hfinish : w.finish ending = w := by rw [finish, hstopped]
    rw [Worker.act, hfinish]
    exact ⟨⟨hstopped, hbusy⟩, rfl, rfl⟩
  | close =>
    refine ⟨?_, ?_, ?_⟩
    · constructor <;> simp [Worker.act, close, wake, hstopped, hbusy]
    · simp [Worker.act, close]
    · simp [Worker.act, close]

theorem after (h : Gone w) (acts : List (Act τ)) : Gone (w.after acts) ∧
    (w.after acts).completed = w.completed ∧ (w.after acts).idle = w.idle := by
  induction acts using List.reverseRecOn with
  | nil => exact ⟨h, rfl, rfl⟩
  | append_singleton acts a ih =>
    obtain ⟨hgone, hcompleted, hidle⟩ := ih
    obtain ⟨hgone', hcompleted', hidle'⟩ := hgone.act a
    rw [after_concat]
    exact ⟨hgone', hcompleted'.trans hcompleted, hidle'.trans hidle⟩

end Gone

/-- A worker is gone for good once letting go of what a task left has panicked: its flag stays up, the task is never
counted, and nobody is told that it is idle. -/
theorem gone_of_burst {τ : Type} {w : Worker τ} {o : Outcome} (ho : o.bursts = true) (hw : w.current?.isSome)
    (hbusy : w.busy = true) (acts : List (Act τ)) :
    let left := (w.conclude o).2.after acts
    Gone left ∧ left.completed = w.completed ∧ left.idle = w.idle := by
  obtain ⟨hgone, hcompleted, hidle⟩ := Gone.of_conclude ho hw hbusy
  obtain ⟨hgone', hcompleted', hidle'⟩ := hgone.after acts
  exact ⟨hgone', hcompleted'.trans hcompleted, hidle'.trans hidle⟩

end PushKeeper.Worker
