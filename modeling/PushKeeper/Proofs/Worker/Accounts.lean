import PushKeeper.Proofs.Worker.LatestWins

namespace PushKeeper.Worker

variable {τ : Type}

def accepted : List (Act τ) → List τ
  | [] => []
  | .submit task :: acts => task :: accepted acts
  | .advance :: acts => accepted acts
  | .finish _ :: acts => accepted acts
  | .close :: _ => []

section

variable (w : Worker τ)

theorem journal_cons (a : Act τ) (acts : List (Act τ)) :
    w.journal (a :: acts) = incidents a w ++ (act a w).journal acts := rfl

theorem submissions_append (j k : List (Incident τ)) :
    submissions (j ++ k) = submissions j ++ submissions k := by
  simp [submissions]

theorem ends_append (j k : List (Incident τ)) : ends (j ++ k) = ends j ++ ends k := by
  simp [ends]

theorem drops_append (j k : List (Incident τ)) : drops (j ++ k) = drops j ++ drops k := by
  simp [drops]

theorem ends_incidents_submit (task : τ) : ends (incidents (.submit task) w) = [] := by
  cases hc : w.closed <;> cases hp : w.pending <;> simp [incidents, hc, hp] <;> rfl

theorem submissions_incidents_submit (task : τ) :
    submissions (incidents (.submit task) w) = if w.closed then [] else [task] := by
  cases hc : w.closed <;> cases hp : w.pending <;> simp [incidents, hc, hp] <;> rfl

theorem submissions_incidents_advance : submissions (incidents .advance w) = [] := by
  cases hw : w.current? <;> cases hw' : w.advance.current? <;> simp [incidents, hw, hw'] <;> rfl

theorem submissions_incidents_finish (ending : Ending) :
    submissions (incidents (.finish ending) w) = [] := by
  cases hw : w.current? <;> simp [incidents, hw] <;> rfl

theorem submissions_incidents_close : submissions (incidents .close w) = [] := by
  cases hp : w.pending <;> simp [incidents, hp] <;> rfl

theorem submissions_journal (acts : List (Act τ)) :
    submissions (w.journal acts) = if w.closed then [] else accepted acts := by
  induction acts generalizing w with
  | nil => simp [submissions, accepted]
  | cons a acts ih =>
    rw [journal_cons, submissions_append, ih]
    cases a with
    | submit task =>
      rw [submissions_incidents_submit]
      cases hc : w.closed <;> simp [act, accepted, hc]
    | advance =>
      rw [submissions_incidents_advance]
      simp [act, accepted]
    | finish ending =>
      rw [submissions_incidents_finish]
      simp [act, accepted]
    | close =>
      rw [submissions_incidents_close]
      simp [act, accepted, close]

@[simp] theorem countDropped_current? : w.countDropped.current? = w.current? := by
  simp [current?]

@[simp] theorem submit_completed (task : τ) : (w.submit task).completed = w.completed := by
  cases hc : w.closed <;> cases hb : w.busy <;> simp [submit, hc, hb]

@[simp] theorem advance_completed : w.advance.completed = w.completed := by
  unfold advance
  split <;> (try split) <;> (try split) <;> rfl

@[simp] theorem advance_dropped : w.advance.dropped = w.dropped := by
  unfold advance
  split <;> (try split) <;> (try split) <;> rfl

@[simp] theorem finish_dropped (ending : Ending) : (w.finish ending).dropped = w.dropped := by
  unfold finish; split <;> rfl

@[simp] theorem close_current? : w.close.current? = w.current? := by
  rw [close, wake_current?]
  exact countDropped_current? w

end

def discard (w : Worker τ) : Worker τ :=
  { w.countDropped with pending := none }

section

variable (w : Worker τ)

@[simp] theorem discard_pending : w.discard.pending = none := rfl

@[simp] theorem discard_closed : w.discard.closed = w.closed := by simp [discard]

@[simp] theorem discard_completed : w.discard.completed = w.completed := by simp [discard]

@[simp] theorem discard_current? : w.discard.current? = w.current? := countDropped_current? w

theorem submit_dropped (task : τ) (hc : w.closed = false) :
    (w.submit task).dropped = w.discard.dropped := by
  cases hb : w.busy <;> simp [submit, discard, hc, hb]

theorem close_dropped : w.close.dropped = w.discard.dropped := by
  simp [close, discard]

end

structure Accounts (w : Worker τ) (j : List (Incident τ)) : Prop where
  pending_of_closed : w.closed → w.pending = none
  starts_eq : starts j = ends j ++ w.current?.toList
  submissions_perm : (submissions j).Perm (starts j ++ drops j ++ w.pending.toList)
  completed_eq : w.completed = UInt64.ofNat (ends j).length
  dropped_eq : w.dropped = UInt64.ofNat (drops j).length

theorem accounts_new (name : String) : Accounts (new name : Worker τ) [] := by
  constructor
  · simp [new]
  · rfl
  · exact .refl _
  · rfl
  · rfl

namespace Accounts

variable {w w' : Worker τ} {j : List (Incident τ)}

theorem of_eq (h : Accounts w j) (hcl : w'.closed → w'.pending = none)
    (hp : w'.pending = w.pending) (hw : w'.current? = w.current?)
    (hc : w'.completed = w.completed) (hd : w'.dropped = w.dropped) : Accounts w' j := by
  obtain ⟨-, h2, h3, h4, h5⟩ := h
  exact ⟨hcl, hw ▸ h2, hp ▸ h3, hc ▸ h4, hd ▸ h5⟩

theorem discard (h : Accounts w j) :
    Accounts w.discard (j ++ w.pending.toList.map .dropped) := by
  cases hp : w.pending with
  | none =>
    rw [Option.toList_none, List.map_nil, List.append_nil]
    exact h.of_eq (by simp) (by simp [hp]) (by simp) (by simp)
      (by simp [Worker.discard, countDropped, hp])
  | some old =>
    obtain ⟨-, h2, h3, h4, h5⟩ := h
    have hd : drops (j ++ [.dropped old]) = drops j ++ [old] := by simp [Incident.dropped?]
    constructor
    · simp
    · simpa [Incident.started?, Incident.ended?] using h2
    · simpa [Incident.submitted?, Incident.started?, Incident.dropped?, hp] using h3
    · simpa [Incident.ended?] using h4
    · simp [hd, Worker.discard, countDropped, hp, h5]

theorem place (h : Accounts w j) (hc : w.closed = false) (hp : w.pending = none) (task : τ) :
    Accounts { w with pending := some task } (j ++ [.submitted task]) := by
  obtain ⟨-, h2, h3, h4, h5⟩ := h
  have hw : ({ w with pending := some task } : Worker τ).current? = w.current? := rfl
  constructor
  · simp [hc]
  · simpa [Incident.started?, Incident.ended?, hw] using h2
  · simpa [Incident.submitted?, Incident.started?, Incident.dropped?, hp]
      using h3.append_right [task]
  · simpa [Incident.ended?] using h4
  · simpa [Incident.dropped?] using h5

theorem submit (h : Accounts w j) (task : τ) :
    Accounts (w.submit task) (j ++ incidents (.submit task) w) := by
  cases hc : w.closed with
  | true =>
    have hi : incidents (.submit task) w = [] := by simp [incidents, hc]
    rw [submit_of_closed task hc, hi, List.append_nil]
    exact h
  | false =>
    have hi : j ++ incidents (.submit task) w =
        (j ++ w.pending.toList.map .dropped) ++ [.submitted task] := by simp [incidents, hc]
    rw [hi]
    have hd := h.discard.place (by simpa using hc) rfl task
    exact hd.of_eq (by simp [hc]) (submit_pending task hc)
      ((w.submit_current? task).trans w.discard_current?.symm) (by simp) (w.submit_dropped task hc)

theorem close (h : Accounts w j) : Accounts w.close (j ++ incidents .close w) := by
  have hp : w.close.pending = none := by simp [Worker.close]
  exact h.discard.of_eq (fun _ => hp) hp (by simp) (by simp [Worker.close]) w.close_dropped

theorem finish (h : Accounts w j) (ending : Ending) :
    Accounts (w.finish ending) (j ++ incidents (.finish ending) w) := by
  cases hp : w.phase with
  | running task =>
    obtain ⟨h1, h2, h3, h4, h5⟩ := h
    have hw : w.current? = some task := by simp [current?, hp]
    have hi : incidents (.finish ending) w = [.ended task] := by simp [incidents, hw]
    have he : ends (j ++ [.ended task]) = ends j ++ [task] := by simp [Incident.ended?]
    rw [hi]
    constructor
    · simpa using h1
    · simpa [Incident.started?, Incident.ended?, hw] using h2
    · simpa [Incident.submitted?, Incident.started?, Incident.dropped?] using h3
    · simp [he, Worker.finish, hp, h4]
    · simpa [Incident.dropped?, Worker.finish, hp] using h5
  | _ => simpa [incidents, Worker.finish, current?, hp] using h

theorem take (h : Accounts w j) {task : τ} (hp : w.pending = some task) (hw : w.current? = none) :
    Accounts { w with pending := none, phase := .running task } (j ++ [.started task]) := by
  obtain ⟨-, h2, h3, h4, h5⟩ := h
  have hs : starts (j ++ [.started task]) = starts j ++ [task] := by simp [Incident.started?]
  have hw' : ({ w with pending := none, phase := .running task } : Worker τ).current? =
    some task := rfl
  constructor
  · simp
  · simpa [hs, Incident.ended?, hw, hw'] using h2
  · -- the task moves from where it waited, past those dropped, to those started
    have hcomm : (drops j ++ [task]).Perm (task :: drops j) := List.perm_append_comm
    rw [hp, List.append_assoc] at h3
    simpa [hs, Incident.submitted?, Incident.dropped?] using h3.trans (hcomm.append_left (starts j))
  · simpa [Incident.ended?] using h4
  · simpa [Incident.dropped?] using h5

theorem advance (h : Accounts w j) : Accounts w.advance (j ++ incidents .advance w) := by
  obtain ⟨hw, hp⟩ | ⟨task, hph, hp, ha⟩ := advance_cases_of_closed h.pending_of_closed
  · have hi : incidents .advance w = [] := by
      cases hc : w.current? <;> simp_all [incidents]
    rw [hi, List.append_nil]
    exact h.of_eq (by simpa [hp] using h.pending_of_closed) hp hw (by simp) (by simp)
  · have hw : w.current? = none := by simp [current?, hph]
    have hi : incidents .advance w = [.started task] := by
      simp [incidents, hw, ha]; simp [current?]
    rw [hi, ha]
    exact h.take hp hw

theorem act (h : Accounts w j) (a : Act τ) : Accounts (Worker.act a w) (j ++ incidents a w) := by
  cases a with
  | submit task => exact h.submit task
  | advance => exact h.advance
  | finish ending => exact h.finish ending
  | close => exact h.close

theorem append_journal (h : Accounts w j) (acts : List (Act τ)) :
    Accounts (w.after acts) (j ++ w.journal acts) := by
  induction acts using List.reverseRecOn with
  | nil => simpa using h
  | append_singleton acts a ih =>
    rw [after_concat, journal_concat, ← List.append_assoc]
    exact ih.act a

theorem after (h : Accounts w []) (acts : List (Act τ)) :
    Accounts (w.after acts) (w.journal acts) :=
  h.append_journal acts

theorem completed_after (h : Accounts w j) (acts : List (Act τ)) :
    (w.after acts).completed = w.completed + UInt64.ofNat (ends (w.journal acts)).length := by
  rw [(h.append_journal acts).completed_eq, h.completed_eq, ends_append, List.length_append,
    UInt64.ofNat_add]

theorem dropped_after (h : Accounts w j) (acts : List (Act τ)) :
    (w.after acts).dropped = w.dropped + UInt64.ofNat (drops (w.journal acts)).length := by
  rw [(h.append_journal acts).dropped_eq, h.dropped_eq, drops_append, List.length_append,
    UInt64.ofNat_add]

theorem perm_fates (h : Accounts w j) :
    (submissions j).Perm (ends j ++ w.current?.toList ++ drops j ++ w.pending.toList) := by
  rw [← h.starts_eq]
  exact h.submissions_perm

theorem count_eq (h : Accounts w j) :
    UInt64.ofNat (submissions j).length =
      w.completed + w.dropped + UInt64.ofNat w.current?.toList.length +
        UInt64.ofNat w.pending.toList.length := by
  have hlen : (submissions j).length =
      (ends j).length + (drops j).length + w.current?.toList.length + w.pending.toList.length := by
    rw [h.perm_fates.length_eq]
    simp only [List.length_append]
    omega
  rw [hlen, h.completed_eq, h.dropped_eq]
  simp only [UInt64.ofNat_add]

end Accounts

example :
    let acts : List (Act Char) :=
      [.submit 'a', .advance, .advance, .submit 'b', .submit 'c', .close, .submit 'd', .finish .done,
        .advance, .advance]
    let w := (new "worker").after acts
    accepted acts = ['a', 'b', 'c'] ∧ w.phase = .stopped ∧ w.idle ∧ w.completed = 1 ∧
      w.dropped = 2 := by
  decide +kernel

end PushKeeper.Worker
