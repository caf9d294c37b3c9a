import Mathlib.Data.List.Basic
import Mathlib.Data.List.Flatten
import PushKeeper.Proofs.Worker.Run

namespace PushKeeper.Worker

variable {τ : Type}

namespace Incident

def submitted? : Incident τ → Option τ
  | submitted task => some task
  | _ => none

def dropped? : Incident τ → Option τ
  | dropped task => some task
  | _ => none

def started? : Incident τ → Option τ
  | started task => some task
  | _ => none

def ended? : Incident τ → Option τ
  | ended task => some task
  | _ => none

def isTurn (i : Incident τ) : Bool :=
  i.started?.isSome || i.ended?.isSome

end Incident

def submissions (j : List (Incident τ)) : List τ := j.filterMap Incident.submitted?

def drops (j : List (Incident τ)) : List τ := j.filterMap Incident.dropped?

def starts (j : List (Incident τ)) : List τ := j.filterMap Incident.started?

def ends (j : List (Incident τ)) : List τ := j.filterMap Incident.ended?

def turns (j : List (Incident τ)) : List (Incident τ) := j.filter Incident.isTurn

structure Intervals (τ : Type) where
  past : List (List τ)
  present : List τ

def Intervals.extend (v : Intervals τ) : Incident τ → Intervals τ
  | .submitted task => ⟨v.past, v.present ++ [task]⟩
  | .started _ => ⟨v.past ++ [v.present], []⟩
  | _ => v

/-- Cuts the submissions at the starts. -/
def intervals (j : List (Incident τ)) : Intervals τ :=
  j.foldl Intervals.extend ⟨[], []⟩

def Intervals.all (v : Intervals τ) : List (List τ) := v.past ++ [v.present]

section

variable (j : List (Incident τ)) (i : Incident τ)

@[simp] theorem submissions_concat :
    submissions (j ++ [i]) = submissions j ++ i.submitted?.toList := by
  cases i <;> simp [submissions, Incident.submitted?]

@[simp] theorem drops_concat : drops (j ++ [i]) = drops j ++ i.dropped?.toList := by
  cases i <;> simp [drops, Incident.dropped?]

@[simp] theorem starts_concat : starts (j ++ [i]) = starts j ++ i.started?.toList := by
  cases i <;> simp [starts, Incident.started?]

@[simp] theorem ends_concat : ends (j ++ [i]) = ends j ++ i.ended?.toList := by
  cases i <;> simp [ends, Incident.ended?]

@[simp] theorem turns_concat : turns (j ++ [i]) = turns j ++ if i.isTurn then [i] else [] := by
  cases h : i.isTurn <;> simp [turns, h]

@[simp] theorem intervals_concat : intervals (j ++ [i]) = (intervals j).extend i := by
  simp [intervals]

theorem submissions_eq_flatten : submissions j = (intervals j).all.flatten := by
  induction j using List.reverseRecOn with
  | nil => rfl
  | append_singleton j i ih =>
    rw [submissions_concat, intervals_concat, ih]
    cases i <;> simp [Incident.submitted?, Intervals.extend, Intervals.all]

end

theorem starts_journal_subset (name : String) (acts rest : List (Act τ)) :
    starts ((new name).journal acts) ⊆ starts ((new name).journal (acts ++ rest)) := by
  simp only [journal, Run.notes_append, starts, List.filterMap_append]
  exact List.subset_append_left _ _

structure Ledger (w : Worker τ) (j : List (Incident τ)) : Prop where
  closed_eq : w.closed = false
  turns_eq :
    turns j =
      (ends j).flatMap (fun t => [.started t, .ended t]) ++ w.current?.toList.map .started
  starts_eq : starts j = ends j ++ w.current?.toList
  past_eq : (intervals j).past.map List.getLast? = (starts j).map some
  pending_eq : w.pending = (intervals j).present.getLast?
  drops_eq : drops j = (intervals j).all.flatMap List.dropLast

theorem ledger_new (name : String) : Ledger (new name : Worker τ) [] := by
  constructor <;> rfl

namespace Ledger

variable {w : Worker τ} {j : List (Incident τ)}

theorem submit (h : Ledger w j) (task : τ) :
    Ledger (w.submit task) (j ++ incidents (.submit task) w) := by
  obtain ⟨h1, h2, h3, h4, h5, h6⟩ := h
  have hp := submit_pending task h1
  cases hq : w.pending with
  | none =>
    have hn : (intervals j).present = [] := by simpa [hq] using h5.symm
    have hi : incidents (.submit task) w = [.submitted task] := by simp [incidents, h1, hq]
    rw [hi]
    constructor <;>
      simp_all [Incident.isTurn, Incident.started?, Incident.ended?, Incident.dropped?,
        Intervals.extend, Intervals.all]
  | some old =>
    -- the task that waited is the last of the interval that goes on
    have hl : (intervals j).present.dropLast ++ [old] = (intervals j).present :=
      List.dropLast_append_getLast? old (h5 ▸ hq)
    have hd : drops (j ++ [.dropped old]) = drops j ++ [old] := by simp [Incident.dropped?]
    have hs : starts (j ++ [.dropped old]) = starts j := by simp [Incident.started?]
    have he : ends (j ++ [.dropped old]) = ends j := by simp [Incident.ended?]
    have ht : turns (j ++ [.dropped old]) = turns j := by
      simp [Incident.isTurn, Incident.started?, Incident.ended?]
    have hv : intervals (j ++ [.dropped old]) = intervals j := by simp [Intervals.extend]
    have hi : j ++ incidents (.submit task) w = (j ++ [.dropped old]) ++ [.submitted task] := by
      simp [incidents, h1, hq]
    rw [hi]
    clear hi
    generalize j ++ [.dropped old] = k at hd hs he ht hv ⊢
    constructor <;>
      simp_all [Incident.isTurn, Incident.started?, Incident.ended?, Incident.dropped?,
        Intervals.extend, Intervals.all]

theorem finish (h : Ledger w j) (ending : Ending) :
    Ledger (w.finish ending) (j ++ incidents (.finish ending) w) := by
  obtain ⟨h1, h2, h3, h4, h5, h6⟩ := h
  cases hc : w.current? with
  | none => constructor <;> simp_all [incidents]
  | some task =>
    have hi : incidents (.finish ending) w = [.ended task] := by simp [incidents, hc]
    rw [hi]
    constructor <;>
      simp_all [Incident.isTurn, Incident.started?, Incident.ended?, Incident.dropped?,
        Intervals.extend, Intervals.all]

theorem advance (h : Ledger w j) : Ledger w.advance (j ++ incidents .advance w) := by
  obtain ⟨h1, h2, h3, h4, h5, h6⟩ := h
  obtain ⟨hc, hp⟩ | ⟨task, hp, hq, ha⟩ := advance_cases h1
  · have hi : incidents .advance w = [] := by
      cases hw : w.current? <;> simp_all [incidents]
    rw [hi, List.append_nil]
    constructor <;> simp_all
  · have hw : w.current? = none := by simp [current?, hp]
    have hi : incidents .advance w = [.started task] := by
      simp [incidents, hw, ha]; simp [current?]
    have hl : (intervals j).present.getLast? = some task := h5 ▸ hq
    rw [hi, ha]
    clear hi ha h5
    constructor <;>
      simp_all [Incident.isTurn, Incident.started?, Incident.ended?, Incident.dropped?,
        Intervals.extend, Intervals.all, current?]

theorem act (h : Ledger w j) {a : Act τ} (ha : a ≠ .close) :
    Ledger (Worker.act a w) (j ++ incidents a w) := by
  cases a with
  | submit task => exact h.submit task
  | advance => exact h.advance
  | finish ending => exact h.finish ending
  | close => exact absurd rfl ha

theorem after (h : Ledger w []) {acts : List (Act τ)} (ha : .close ∉ acts) :
    Ledger (w.after acts) (w.journal acts) := by
  induction acts using List.reverseRecOn with
  | nil => exact h
  | append_singleton acts a ih =>
    simp only [List.mem_append, List.mem_singleton, not_or] at ha
    rw [after_concat, journal_concat]
    exact (ih ha.1).act (Ne.symm ha.2)

end Ledger

section

variable {bs : List (List τ)} {ts : List τ} {b : List τ}

theorem sublist_flatten_of_getLast? (h : bs.map List.getLast? = ts.map some) :
    ts.Sublist bs.flatten := by
  induction bs generalizing ts with
  | nil => cases ts <;> simp_all
  | cons b bs ih =>
    cases ts with
    | nil => simp at h
    | cons t ts =>
      simp only [List.map_cons, List.cons.injEq] at h
      have hb : [t].Sublist b := List.singleton_sublist.2 (List.mem_of_getLast? h.1)
      simpa using hb.append (ih h.2)

theorem perm_flatten_of_getLast? (h : bs.map List.getLast? = ts.map some) :
    bs.flatten.Perm (ts ++ bs.flatMap List.dropLast) := by
  induction bs generalizing ts with
  | nil => cases ts <;> simp_all
  | cons b bs ih =>
    cases ts with
    | nil => simp at h
    | cons t ts =>
      simp only [List.map_cons, List.cons.injEq] at h
      have hb : b.dropLast ++ [t] = b := List.dropLast_append_getLast? t h.1
      have hc : (b.dropLast ++ ts).Perm (ts ++ b.dropLast) := List.perm_append_comm
      calc
        (b :: bs).flatten = b.dropLast ++ t :: bs.flatten := by
          rw [List.flatten_cons, List.append_cons, hb]
        _ |>.Perm (t :: (b.dropLast ++ bs.flatten)) := List.perm_middle
        _ |>.Perm (t :: (b.dropLast ++ (ts ++ bs.flatMap List.dropLast))) :=
          ((ih h.2).append_left _).cons t
        _ |>.Perm (t :: ts ++ (b :: bs).flatMap List.dropLast) := by
          simpa using (hc.append_right (bs.flatMap List.dropLast)).cons t

theorem dropLast_append_getLast?_toList (b : List τ) : b.dropLast ++ b.getLast?.toList = b := by
  induction b using List.reverseRecOn with
  | nil => rfl
  | append_singleton b t => simp

theorem getLast?_flatten_of_getLast? (h : bs.map List.getLast? = ts.map some) :
    bs.flatten.getLast? = ts.getLast? := by
  induction bs using List.reverseRecOn generalizing ts with
  | nil => cases ts <;> simp_all
  | append_singleton bs b ih =>
    cases ts using List.reverseRecOn with
    | nil => simp at h
    | append_singleton ts t =>
      have hb : b.getLast? = some t := by simpa using congrArg List.getLast? h
      simp [hb]

end

/-- Until a worker is closed, whatever happens in whatever order:

* a task ends before the next one starts;
* the submissions are cut into intervals by the starts, and the task that ends an interval is its
  last submission, while the last submission of the interval that goes on is the task that waits;
* all other submissions are dropped, so that each submission has one of three fates;
* tasks start in the order of their submission, and the newest submission waits, is at work, or was
  the last to end. -/
theorem latest_wins (name : String) (acts : List (Act τ)) (h : .close ∉ acts) :
    let w := (new name).after acts
    let j := (new name).journal acts
    turns j =
        (ends j).flatMap (fun t => [.started t, .ended t]) ++ w.current?.toList.map .started ∧
      (intervals j).all.flatten = submissions j ∧
      (intervals j).past.map List.getLast? = (starts j).map some ∧
      (intervals j).present.getLast? = w.pending ∧
      drops j = (intervals j).all.flatMap List.dropLast ∧
      (submissions j).Perm (starts j ++ drops j ++ w.pending.toList) ∧
      (starts j).Sublist (submissions j) ∧
      (submissions j).getLast? = w.pending.or (w.current?.or (ends j).getLast?) ∧
      ((submissions j).Nodup →
        ∀ t ∈ drops j,
          t ∉ starts j ∧ w.pending ≠ some t ∧ (submissions j).getLast? ≠ some t ∧
            ∀ acts', acts' <+: acts → ((new name).after acts').current? ≠ some t) := by
  intro w j
  have hl : Ledger w j := (ledger_new name).after h
  have hs : (intervals j).all.flatten = submissions j := (submissions_eq_flatten j).symm
  have hall : (intervals j).all.flatten = (intervals j).past.flatten ++ (intervals j).present := by
    simp [Intervals.all]
  have hperm : (submissions j).Perm (starts j ++ drops j ++ w.pending.toList) := by
    calc
      submissions j = (intervals j).past.flatten ++ (intervals j).present := by rw [← hs, hall]
      _ |>.Perm (starts j ++ (intervals j).past.flatMap List.dropLast ++ (intervals j).present) :=
        (perm_flatten_of_getLast? hl.past_eq).append_right _
      _ |>.Perm (starts j ++ drops j ++ w.pending.toList) := by
        rw [hl.drops_eq, hl.pending_eq, Intervals.all, List.flatMap_append, List.append_assoc,
          List.append_assoc, List.append_assoc, List.flatMap_singleton,
          dropLast_append_getLast?_toList]
  have hsub : (starts j).Sublist (submissions j) := by
    rw [← hs, hall]
    exact (sublist_flatten_of_getLast? hl.past_eq).trans (List.sublist_append_left _ _)
  have hlast : (submissions j).getLast? = w.pending.or (w.current?.or (ends j).getLast?) := by
    rw [← hs, hall, List.getLast?_append, getLast?_flatten_of_getLast? hl.past_eq, hl.starts_eq,
      ← hl.pending_eq, List.getLast?_append]
    cases w.current? <;> simp
  refine ⟨hl.turns_eq, hs, hl.past_eq, hl.pending_eq.symm, hl.drops_eq, hperm, hsub, hlast, ?_⟩
  intro hn t ht
  have hn' : (starts j ++ drops j ++ w.pending.toList).Nodup := hperm.nodup_iff.1 hn
  obtain ⟨hsd, -, hp⟩ := List.nodup_append.1 hn'
  have hstart : t ∉ starts j := fun hm => (List.nodup_append.1 hsd).2.2 t hm t ht rfl
  have hwait : w.pending ≠ some t := fun hw =>
    hp t (List.mem_append_right _ ht) t (by simp [hw]) rfl
  refine ⟨hstart, hwait, fun hnew => ?_, ?_⟩
  · rw [hl.starts_eq] at hstart
    rw [hlast] at hnew
    cases hw : w.pending with
    | some u => simp_all
    | none =>
      cases hc : w.current? with
      | some u => simp_all
      | none =>
        have := List.mem_of_getLast? (by simpa [hw, hc] using hnew : (ends j).getLast? = some t)
        exact hstart (List.mem_append_left _ this)
  · rintro acts' ⟨rest, rfl⟩ hc
    have hl' : Ledger ((new name).after acts') ((new name).journal acts') :=
      (ledger_new name).after fun hm => h (List.mem_append_left _ hm)
    have hm : t ∈ starts ((new name).journal acts') := by simp [hl'.starts_eq, hc]
    exact hstart (starts_journal_subset name acts' rest hm)

/-- While the first task is at work two more come, the second from inside it: the first of the two is
dropped, and the second runs. -/
theorem latest_wins_of_three :
    let acts : List (Act Nat) :=
      [.submit 1, .advance, .advance, .submit 2, .submit 3, .finish .done, .advance]
    .close ∉ acts ∧ starts ((new "worker").journal acts) = [1, 3] ∧
      drops ((new "worker").journal acts) = [2] ∧
      (submissions ((new "worker").journal acts)).Perm [1, 3, 2] := by
  refine ⟨by decide, by decide, ?_, ?_⟩
  · rw [(latest_wins "worker" _ (by decide)).2.2.2.2.1]
    decide
  · exact (latest_wins "worker" _ (by decide)).2.2.2.2.2.1

end PushKeeper.Worker
