import PushKeeper.Proofs.Receiver.Conduct
import PushKeeper.Proofs.Worker.Labels

namespace PushKeeper.Receiver

open Store (KeyValueStore)

structure Numbered (σ : Type) where
  receiver : Receiver σ
  tasks : Worker (Nat × Job)
  count : Nat

variable {σ : Type}

def numbered (r : Receiver σ) : Numbered σ := ⟨r, .new r.worker.name, 0⟩

variable [KeyValueStore σ]

namespace Numbered

def act (a : Act) (s : Numbered σ) : Numbered σ where
  receiver := Receiver.act a s.receiver
  tasks := s.tasks.after ((toWorker a s.receiver).map (.map (s.count, ·)))
  count := s.count + 1

def after (s : Numbered σ) (acts : List Act) : Numbered σ :=
  Run.after act s acts

def queues (a : Act) (s : Numbered σ) : List (Nat × Job) :=
  (a.job? s.receiver).toList.map (s.count, ·)

def ended (a : Act) (s : Numbered σ) : List (Nat × Job) :=
  if a.ends s.receiver then s.tasks.current?.toList else []

def queued (s : Numbered σ) (acts : List Act) : List (Nat × Job) :=
  Run.notes act queues s acts

def endings (s : Numbered σ) (acts : List Act) : List (Nat × Job) :=
  Run.notes act ended s acts

variable {s : Numbered σ}

@[simp] theorem after_concat (s : Numbered σ) (acts : List Act) (a : Act) :
    s.after (acts ++ [a]) = act a (s.after acts) := by
  simp [after]

theorem queued_concat (s : Numbered σ) (acts : List Act) (a : Act) :
    s.queued (acts ++ [a]) = s.queued acts ++ queues a (s.after acts) := by
  simp [queued, after]

theorem endings_concat (s : Numbered σ) (acts : List Act) (a : Act) :
    s.endings (acts ++ [a]) = s.endings acts ++ ended a (s.after acts) := by
  simp [endings, after]

@[simp] theorem receiver_after (s : Numbered σ) (acts : List Act) :
    (s.after acts).receiver = s.receiver.after acts := by
  induction acts using List.reverseRecOn with
  | nil => rfl
  | append_singleton acts a ih => simp [act, ih]

@[simp] theorem count_after (s : Numbered σ) (acts : List Act) :
    (s.after acts).count = s.count + acts.length := by
  induction acts using List.reverseRecOn with
  | nil => rfl
  | append_singleton acts a ih => simp [act, ih, Nat.add_assoc]

structure Faithful (s : Numbered σ) : Prop where
  steady : Steady s.receiver
  tasks_eq : s.tasks.map Prod.snd = s.receiver.worker

namespace Faithful

omit [KeyValueStore σ] in
theorem closed_eq (h : Faithful s) : s.tasks.closed = false := by
  have hc := h.steady.closed_eq
  rwa [← h.tasks_eq] at hc

omit [KeyValueStore σ] in
theorem current?_eq (h : Faithful s) : s.receiver.worker.current? = s.tasks.current?.map Prod.snd := by
  rw [← h.tasks_eq, Worker.map_current?]

theorem act (h : Faithful s) (a : Act) : Faithful (act a s) := by
  refine ⟨h.steady.act a, ?_⟩
  have hmap : ∀ acts : List (Worker.Act Job),
      (acts.map (.map (s.count, ·))).map (Worker.Act.map Prod.snd) = acts := by
    intro acts
    rw [List.map_map]
    refine List.map_id'' ?_ acts
    intro b
    cases b <;> rfl
  show (s.tasks.after _).map Prod.snd = (Receiver.act a s.receiver).worker
  rw [Worker.map_after, hmap, h.tasks_eq, worker_act h.steady]

theorem after (h : Faithful s) (acts : List Act) : Faithful (s.after acts) := by
  induction acts using List.reverseRecOn with
  | nil => exact h
  | append_singleton acts a ih =>
    rw [after_concat]
    exact ih.act a

end Faithful

omit [KeyValueStore σ] in
theorem faithful_numbered (name : String) (s : σ) (clock : UInt64) (policy : Fetch.Policy)
    (delivery : Fetch.Delivery) : Faithful (numbered (new name s clock policy delivery)) :=
  ⟨steady_new name s clock policy delivery, rfl⟩

theorem tasks_act_cases (a : Act) (s : Numbered σ) :
    (a.ends s.receiver = false ∧ (act a s).tasks = s.tasks.advance) ∨
      (act a s).tasks = (s.tasks.after ((queues a s).map .submit)).after
        (if a.ends s.receiver then [.finish .done] else []) := by
  have hact : (act a s).tasks = s.tasks.after ((toWorker a s.receiver).map (.map (s.count, ·))) := rfl
  obtain ⟨ht, -, hc⟩ | ht := toWorker_cases a s.receiver
  · exact .inl ⟨by simp [Act.ends, hc], by rw [hact, ht]; rfl⟩
  · right
    rw [hact, ht, List.map_append, Worker.after, Run.after_append]
    cases a.ends s.receiver <;> cases hj : a.job? s.receiver <;> simp [queues, hj] <;> rfl

theorem line_act_sublist (h : Faithful s) (a : Act) :
    (ended a s ++ (act a s).tasks.line).Sublist (s.tasks.line ++ queues a s) := by
  obtain ⟨he, hw⟩ | hw := tasks_act_cases a s
  · rw [hw, Worker.line_advance h.closed_eq]
    simp [ended, he]
  · have hsubmit : (s.tasks.after ((queues a s).map .submit)).current? = s.tasks.current? ∧
        (s.tasks.after ((queues a s).map .submit)).line.Sublist (s.tasks.line ++ queues a s) := by
      cases hj : a.job? s.receiver with
      | none => simp [queues, hj]
      | some job =>
        have hq : queues a s = [(s.count, job)] := by simp [queues, hj]
        rw [hq]
        exact ⟨Worker.submit_current? _ _, Worker.line_submit_sublist h.closed_eq _⟩
    generalize s.tasks.after ((queues a s).map .submit) = w at hw hsubmit
    have hfinish : ended a s ++ (act a s).tasks.line = w.line := by
      rw [hw, ended, ← hsubmit.1]
      cases a.ends s.receiver with
      | false => simp
      | true => exact (w.line_finish .done).symm
    rw [hfinish]
    exact hsubmit.2

theorem endings_line_sublist (h : Faithful s) (acts : List Act) :
    (s.endings acts ++ (s.after acts).tasks.line).Sublist (s.tasks.line ++ s.queued acts) := by
  induction acts using List.reverseRecOn with
  | nil => simp [endings, queued, after]
  | append_singleton acts a ih =>
    have hstep := line_act_sublist (h.after acts) a
    rw [endings_concat, queued_concat, after_concat, List.append_assoc, ← List.append_assoc s.tasks.line]
    refine (hstep.append_left _).trans ?_
    rw [← List.append_assoc]
    exact ih.append_right _

theorem mem_queued_iff {task : Nat × Job} {acts : List Act} :
    task ∈ s.queued acts ↔ ∃ before a rest, acts = before ++ a :: rest ∧
      task.1 = s.count + before.length ∧ a.job? (s.receiver.after before) = some task.2 := by
  rw [queued, Run.mem_notes_iff]
  refine exists₃_congr fun before a rest => and_congr_right fun _ => ?_
  rw [← after, queues, receiver_after, count_after]
  cases a.job? (s.receiver.after before) <;> simp [Prod.ext_iff, eq_comm]

theorem pairwise_queued (s : Numbered σ) (acts : List Act) :
    ((s.queued acts).map Prod.fst).Pairwise (· < ·) := by
  induction acts using List.reverseRecOn with
  | nil => exact .nil
  | append_singleton acts a ih =>
    rw [queued_concat, List.map_append, List.pairwise_append]
    cases hj : a.job? (s.receiver.after acts) with
    | none =>
      have hnew : queues a (s.after acts) = [] := by simp [queues, hj]
      rw [hnew]
      exact ⟨ih, .nil, by simp⟩
    | some job =>
      have hnew : queues a (s.after acts) = [(s.count + acts.length, job)] := by simp [queues, hj]
      rw [hnew]
      refine ⟨ih, List.pairwise_singleton _ _, ?_⟩
      intro n hn m hm
      obtain ⟨task, ht, rfl⟩ := List.mem_map.1 hn
      obtain ⟨before, b, rest, rfl, hb, -⟩ := mem_queued_iff.1 ht
      obtain rfl : m = _ := List.mem_singleton.1 hm
      rw [hb, List.length_append, List.length_cons]
      omega

theorem pairwise_endings (h : Faithful s) (hs : s.tasks.line = []) (acts : List Act) :
    ((s.endings acts).map Prod.fst).Pairwise (· < ·) := by
  have hsub := endings_line_sublist h acts
  rw [hs, List.nil_append] at hsub
  exact (pairwise_queued s acts).sublist (((List.sublist_append_left _ _).trans hsub).map Prod.fst)

end Numbered

end PushKeeper.Receiver
