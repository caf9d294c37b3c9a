import PushKeeper.Proofs.Receiver.Run

namespace PushKeeper.Receiver

open Registration (Endpoint Status)
open Store (Faultless KeyValueStore)
open Store.Values

inductive Kind
  | registration
  | fetch
  deriving DecidableEq

def Kind.other : Kind → Kind
  | registration => fetch
  | fetch => registration

theorem Kind.ne_iff_eq_other {k l : Kind} : l ≠ k ↔ l = k.other := by
  cases k <;> cases l <;> decide

def Job.kind : Job → Kind
  | register _ => .registration
  | retry => .registration
  | fetch => .fetch

inductive Mark
  | wanted (kind : Kind)
  | begun (kind : Kind)
  deriving DecidableEq

/-- The last request of this kind, if there is one, had a task of its kind start after it. -/
def Served (k : Kind) (j : List Mark) : Prop :=
  ∀ before after, j = before ++ .wanted k :: after → .wanted k ∉ after → .begun k ∈ after

theorem served_nil (k : Kind) : Served k [] := by
  intro before after h
  simp at h

theorem served_concat_iff {k : Kind} {j : List Mark} {m : Mark} :
    Served k (j ++ [m]) ↔ m = .begun k ∨ (m ≠ .wanted k ∧ Served k j) := by
  constructor
  · intro h
    by_cases hm : m = .begun k
    · exact .inl hm
    · have hne : m ≠ .wanted k := by
        rintro rfl
        simpa using h j [] rfl
      refine .inr ⟨hne, ?_⟩
      rintro before after rfl hw
      have := h before (after ++ [m]) (by simp) (by simp [hw, Ne.symm hne])
      simpa [Ne.symm hm] using this
  · intro h before after hj hw
    cases after using List.reverseRecOn with
    | nil =>
      obtain ⟨-, rfl⟩ : j = before ∧ m = .wanted k := by simpa using hj
      simp at h
    | append_singleton after n =>
      have hj' : j ++ [m] = (before ++ .wanted k :: after) ++ [n] := by simpa using hj
      obtain ⟨rfl, hn⟩ := List.append_inj' hj' rfl
      obtain rfl : m = n := by simpa using hn
      obtain rfl | ⟨-, hs⟩ := h
      · simp
      · have hw' : .wanted k ∉ after := fun hmem => hw (List.mem_append_left _ hmem)
        exact List.mem_append_left _ (hs before after rfl hw')

theorem served_append_toList_iff {k : Kind} {j : List Mark} {m : Option Mark} :
    Served k (j ++ m.toList) ↔
      m = some (.begun k) ∨ (m ≠ some (.wanted k) ∧ Served k j) := by
  cases m with
  | none => simp
  | some m => simp [served_concat_iff]

theorem mark_cases (k : Kind) (m : Option Mark) :
    m = some (.wanted k) ∨ m = some (.wanted k.other) ∨ m = some (.begun k) ∨
      ((∀ l, m ≠ some (.wanted l)) ∧ m ≠ some (.begun k)) := by
  rcases m with _ | l | l
  · simp
  · cases k <;> cases l <;> simp [Kind.other]
  · cases k <;> cases l <;> simp

section

variable {σ : Type} (k : Kind) (r : Receiver σ)

def Waiting : Prop :=
  ∃ job, r.worker.pending = some job ∧ job.kind = k

def Starting : Prop :=
  ∃ job, r.worker.current? = some job ∧ job.kind = k ∧ r.inFlight = none

def Queued : Prop := Waiting k r ∨ Starting k r

end

section

variable {σ : Type}

inductive Turn (r r' : Receiver σ) : Option Mark → Prop
  | asked {job : Job} (hp : r'.worker.pending = some job)
      (hw : r'.worker.current? = r.worker.current?) (hf : r'.inFlight = r.inFlight) :
      Turn r r' (some (.wanted job.kind))
  | took {job : Job} (hp : r.worker.pending = some job) (hw : r.worker.current? = none)
      (hp' : r'.worker.pending = none) (hw' : r'.worker.current? = some job)
      (hf : r'.inFlight = none) : Turn r r' none
  | began {job : Job} (hw : r.worker.current? = some job) (hf : r.inFlight = none)
      (hp : r'.worker.pending = r.worker.pending)
      (hr : r'.worker.current? = none ∨ r'.inFlight.isSome) : Turn r r' (some (.begun job.kind))
  | ended (hf : r.inFlight.isSome) (hw : r'.worker.current? = none)
      (hp : r'.worker.pending = r.worker.pending) : Turn r r' none
  | still (hp : r'.worker.pending = r.worker.pending)
      (hw : r'.worker.current? = r.worker.current?)
      (hf : r'.inFlight = none ↔ r.inFlight = none) : Turn r r' none

namespace Turn

variable {k : Kind} {r r' r₁ : Receiver σ} {m : Option Mark}

theorem of_submit (job : Job) (hc : r.worker.closed = false) (hw : r₁.worker = r.worker)
    (hf : r₁.inFlight = r.inFlight) : Turn r (r₁.submit job) (some (.wanted job.kind)) := by
  apply asked
  · simp [hw, Worker.submit_pending job hc]
  · simp [hw]
  · simp [hf]

theorem waiting_of_wanted (h : Turn r r' (some (.wanted k))) : Waiting k r' := by
  cases h with
  | asked hp => exact ⟨_, hp, rfl⟩

theorem queued_iff_starting (h : Turn r r' (some (.wanted k.other))) :
    Queued k r' ↔ Starting k r := by
  generalize hl : k.other = l at h
  cases h with
  | @asked job hp hw hf =>
    have hne : job.kind ≠ k := Kind.ne_iff_eq_other.2 hl.symm
    simp [Queued, Waiting, Starting, hp, hw, hf, hne]

theorem starting_of_begun (h : Turn r r' (some (.begun k))) : Starting k r := by
  cases h with
  | began hw hf => exact ⟨_, hw, rfl, hf⟩

theorem queued_iff (h : Turn r r' m) (hw : ∀ l, m ≠ some (.wanted l)) (hb : m ≠ some (.begun k)) :
    Queued k r' ↔ Queued k r := by
  cases h with
  | asked => simp at hw
  | took hp hc hp' hc' hf => simp [Queued, Waiting, Starting, hp, hc, hp', hc', hf]
  | began hc hf hp hr =>
    obtain hr | hr := hr <;> simp_all [Queued, Waiting, Starting, Option.isSome_iff_ne_none]
  | ended hf hc hp => simp_all [Queued, Waiting, Starting, Option.isSome_iff_ne_none]
  | still hp hc hf => simp [Queued, Waiting, Starting, hp, hc, hf]

end Turn

end

variable {σ : Type} [KeyValueStore σ] [Faultless σ]

/-- The work that is requested when something happens: a registration by a changed endpoint unless the
status forbids or disregards it, by hand, and when the relay is let in again; a fetch by a message. -/
def wants : Act → Receiver σ → Option Kind
  | .handle (.newEndpoint e _), r =>
    if r.endpoint ≠ some e ∧
        (r.status = .registered ∨ r.status = .internalError ∨ r.status = .missingEndpoint) then
      some .registration
    else none
  | .handle (.message ..), r => if r.delivery.isActive r.store then some .fetch else none
  | .retry, _ => some .registration
  | .airGapped false, r =>
    if r.status = .airGapped ∧ r.endpoint.isSome then some .registration else none
  | _, _ => none

def begins : Act → Receiver σ → Option Kind
  | .work, r => if r.inFlight.isNone then r.worker.current?.map Job.kind else none
  | _, _ => none

def mark? (a : Act) (r : Receiver σ) : Option Mark :=
  ((wants a r).map .wanted).or ((begins a r).map .begun)

def marks (r : Receiver σ) (acts : List Act) : List Mark :=
  Run.notes act (fun a r => (mark? a r).toList) r acts

theorem Turn.of_eq {r r' : Receiver σ} {a : Act} {m : Option Mark} (hm : mark? a r = m)
    (h : Turn r r' m) : Turn r r' (mark? a r) := by
  rwa [hm]

theorem Step.turn {r r' : Receiver σ} {a : Act} (hr : Steady r) (h : Step r a r') :
    Turn r r' (mark? a r) := by
  have hc := hr.closed_eq
  cases h with
  | queuedAlerting h hs =>
    refine .of_eq ?_ (.of_submit (.register true) hc rfl rfl)
    simp [mark?, wants, h, hs, Job.kind]
  | queued h hs =>
    refine .of_eq ?_ (.of_submit (.register false) hc rfl rfl)
    simp [mark?, wants, h, hs, Job.kind]
  | accepted h =>
    refine .of_eq ?_ (.of_submit .fetch hc rfl rfl)
    simp [mark?, wants, h, Job.kind]
  | retry =>
    refine .of_eq ?_ (.of_submit .retry hc rfl rfl)
    simp [mark?, wants, Job.kind]
  | left h he =>
    refine .of_eq ?_ (.of_submit (.register false) hc (by simp) (by simp))
    simp [mark?, wants, h, he, Job.kind]
  | moved h =>
    refine .of_eq (m := none) (by simp [mark?, wants, begins, h]) ?_
    have hf : r.inFlight = none := by simpa [h] using hr.current_of_inFlight
    obtain ⟨hw, hp⟩ | ⟨job, -, hp, hw⟩ := Worker.advance_cases hc
    · exact .still hp hw .rfl
    · exact .took hp h (by simp [hw]) (by simp [hw, Worker.current?]) hf
  | registering h hf | retrying h hf | fetching h hf | gaveUp h hf | missed h hf =>
    refine .of_eq ?_ (.began h hf ?_ ?_) <;> simp [mark?, wants, begins, *]
  | recorded hf | discarded hf | enqueued hf | pulled hf =>
    refine .of_eq ?_ (.ended ?_ ?_ ?_) <;> simp [mark?, wants, begins, hf]
  | @sameMode enabled h =>
    refine .of_eq ?_ (.still rfl rfl .rfl)
    cases enabled <;> simp_all [mark?, wants, begins]
  | _ =>
    refine .of_eq ?_ (.still ?_ ?_ ?_) <;> simp [mark?, wants, begins, *]

variable {k : Kind} {r r₀ : Receiver σ} {a : Act} {acts : List Act}

theorem mark?_eq_wanted_iff : mark? a r = some (.wanted k) ↔ wants a r = some k := by
  cases h : wants a r <;> simp [mark?, h]

@[simp] theorem marks_nil (r : Receiver σ) : r.marks [] = [] := rfl

@[simp] theorem marks_append (r : Receiver σ) (as bs : List Act) :
    r.marks (as ++ bs) = r.marks as ++ (r.after as).marks bs := by
  simp [marks, after]

@[simp] theorem marks_singleton (r : Receiver σ) (a : Act) :
    r.marks [a] = (mark? a r).toList := by
  simp [marks]

/-- A request of the other kind came while the task for the last request of this kind waited, and no
request of this kind came since. -/
def Displaced (k : Kind) (r₀ : Receiver σ) (acts : List Act) : Prop :=
  ∃ before a after,
    acts = before ++ a :: after ∧
    Waiting k (r₀.after before) ∧ ¬ Starting k (r₀.after before) ∧
    ¬ Served k (r₀.marks before) ∧ wants a (r₀.after before) = some k.other ∧
    .wanted k ∉ (r₀.after (before ++ [a])).marks after

theorem displaced_concat_iff :
    Displaced k r₀ (acts ++ [a]) ↔
      (Waiting k (r₀.after acts) ∧ ¬ Starting k (r₀.after acts) ∧ ¬ Served k (r₀.marks acts) ∧
        wants a (r₀.after acts) = some k.other) ∨
      (Displaced k r₀ acts ∧ wants a (r₀.after acts) ≠ some k) := by
  constructor
  · rintro ⟨before, b, after, hacts, hw, hst, hs, hb, hn⟩
    cases after using List.reverseRecOn with
    | nil =>
      obtain ⟨rfl, rfl⟩ : acts = before ∧ a = b := by simpa using hacts
      exact .inl ⟨hw, hst, hs, hb⟩
    | append_singleton after c =>
      have hacts' : acts ++ [a] = (before ++ b :: after) ++ [c] := by simpa using hacts
      obtain ⟨rfl, hc⟩ := List.append_inj' hacts' rfl
      obtain rfl : a = c := by simpa using hc
      rw [marks_append, List.mem_append, not_or] at hn
      refine .inr ⟨⟨before, b, after, rfl, hw, hst, hs, hb, hn.1⟩, fun ha => hn.2 ?_⟩
      have hm := mark?_eq_wanted_iff.2 ha
      simpa using hm
  · rintro (⟨hw, hst, hs, ha⟩ | ⟨⟨before, b, after, rfl, hw, hst, hs, hb, hn⟩, ha⟩)
    · exact ⟨acts, a, [], rfl, hw, hst, hs, ha, by simp⟩
    · refine ⟨before, b, after ++ [a], by simp, hw, hst, hs, hb, ?_⟩
      have hm := mt mark?_eq_wanted_iff.1 ha
      rw [marks_append, List.mem_append, not_or]
      exact ⟨hn, by simpa using hm⟩

/-- Where the last request of a kind is: unless it was served, its task is queued, or the request was
displaced. -/
structure Tally (k : Kind) (r₀ : Receiver σ) (acts : List Act) : Prop where
  of_not_served :
    ¬ Served k (r₀.marks acts) → Queued k (r₀.after acts) ∨ Displaced k r₀ acts
  of_displaced :
    Displaced k r₀ acts → ¬ Served k (r₀.marks acts) ∧ ¬ Queued k (r₀.after acts)

theorem tally_nil : Tally k r₀ [] := by
  constructor
  · intro h
    exact absurd (served_nil k) h
  · rintro ⟨before, a, after, h, -⟩
    simp at h

theorem marks_concat (r₀ : Receiver σ) (acts : List Act) (a : Act) :
    r₀.marks (acts ++ [a]) = r₀.marks acts ++ (mark? a (r₀.after acts)).toList := by
  simp

theorem turn_concat (hr : Steady (r₀.after acts)) (a : Act) :
    Turn (r₀.after acts) (r₀.after (acts ++ [a])) (mark? a (r₀.after acts)) :=
  (step_concat r₀ acts a).turn hr

namespace Tally

theorem wanted (hr : Steady (r₀.after acts))
    (hm : mark? a (r₀.after acts) = some (.wanted k)) : Tally k r₀ (acts ++ [a]) := by
  have hturn := turn_concat hr a
  have ha := mark?_eq_wanted_iff.1 hm
  rw [hm] at hturn
  constructor
  · exact fun _ => .inl (.inl hturn.waiting_of_wanted)
  · intro hd
    obtain ⟨-, -, -, ha'⟩ | ⟨-, ha'⟩ := displaced_concat_iff.1 hd
    · rw [ha] at ha'
      cases k <;> simp [Kind.other] at ha'
    · exact absurd ha ha'

theorem wanted_other (h : Tally k r₀ acts) (hr : Steady (r₀.after acts))
    (hm : mark? a (r₀.after acts) = some (.wanted k.other)) : Tally k r₀ (acts ++ [a]) := by
  have hturn := turn_concat hr a
  have ha := mark?_eq_wanted_iff.1 hm
  have hne : k.other ≠ k := Kind.ne_iff_eq_other.2 rfl
  have hserved : Served k (r₀.marks (acts ++ [a])) ↔ Served k (r₀.marks acts) := by
    rw [marks_concat, served_append_toList_iff, hm]
    simp [hne]
  rw [hm] at hturn
  constructor
  · rw [hserved]
    intro hs
    by_cases hst : Starting k (r₀.after acts)
    · exact .inl (hturn.queued_iff_starting.2 hst)
    · right
      obtain hq | hd := h.of_not_served hs
      · exact displaced_concat_iff.2 (.inl ⟨hq.resolve_right hst, hst, hs, ha⟩)
      · exact displaced_concat_iff.2 (.inr ⟨hd, by simp [ha, hne]⟩)
  · rw [hserved, hturn.queued_iff_starting]
    intro hd
    obtain ⟨-, hst, hs, -⟩ | ⟨hd, -⟩ := displaced_concat_iff.1 hd
    · exact ⟨hs, hst⟩
    · obtain ⟨hs, hq⟩ := h.of_displaced hd
      exact ⟨hs, fun hst => hq (.inr hst)⟩

theorem begun (h : Tally k r₀ acts) (hr : Steady (r₀.after acts))
    (hm : mark? a (r₀.after acts) = some (.begun k)) : Tally k r₀ (acts ++ [a]) := by
  have hturn := turn_concat hr a
  have hserved : Served k (r₀.marks (acts ++ [a])) := by
    rw [marks_concat, served_append_toList_iff]
    exact .inl hm
  rw [hm] at hturn
  constructor
  · exact fun hs => absurd hserved hs
  · intro hd
    obtain ⟨-, -, -, ha⟩ | ⟨hd, -⟩ := displaced_concat_iff.1 hd
    · have := mark?_eq_wanted_iff.2 ha
      simp [hm] at this
    · exact absurd (.inr hturn.starting_of_begun) (h.of_displaced hd).2

theorem unmarked (h : Tally k r₀ acts) (hr : Steady (r₀.after acts))
    (hw : ∀ l, mark? a (r₀.after acts) ≠ some (.wanted l))
    (hb : mark? a (r₀.after acts) ≠ some (.begun k)) : Tally k r₀ (acts ++ [a]) := by
  have hturn := turn_concat hr a
  have hserved : Served k (r₀.marks (acts ++ [a])) ↔ Served k (r₀.marks acts) := by
    rw [marks_concat, served_append_toList_iff]
    simp [hw k, hb]
  have hdisplaced : Displaced k r₀ (acts ++ [a]) ↔ Displaced k r₀ acts := by
    rw [displaced_concat_iff, ← mark?_eq_wanted_iff, Ne, ← mark?_eq_wanted_iff]
    simp [hw]
  constructor
  · rw [hserved, hturn.queued_iff hw hb, hdisplaced]
    exact h.of_not_served
  · rw [hserved, hturn.queued_iff hw hb, hdisplaced]
    exact h.of_displaced

theorem concat (h : Tally k r₀ acts) (hr : Steady (r₀.after acts)) (a : Act) :
    Tally k r₀ (acts ++ [a]) := by
  obtain hm | hm | hm | ⟨hw, hb⟩ := mark_cases k (mark? a (r₀.after acts))
  · exact wanted hr hm
  · exact h.wanted_other hr hm
  · exact h.begun hr hm
  · exact h.unmarked hr hw hb

end Tally

theorem tally (hr : Steady r₀) (k : Kind) (acts : List Act) : Tally k r₀ acts := by
  induction acts using List.reverseRecOn with
  | nil => exact tally_nil
  | append_singleton acts a ih => exact ih.concat (hr.after acts) a

/-- At rest, a task of a kind has started since the last request for that kind of work, if and only if
that request was not displaced. -/
theorem served_iff_not_displaced (name : String) (s : σ) (clock : UInt64) (policy : Fetch.Policy)
    (delivery : Fetch.Delivery) (acts : List Act) (k : Kind)
    (hi : ((new name s clock policy delivery).after acts).worker.idle) :
    Served k ((new name s clock policy delivery).marks acts) ↔
      ¬ Displaced k (new name s clock policy delivery) acts := by
  have hr := steady_new name s clock policy delivery
  have htally := tally hr k acts
  obtain ⟨hp, hw⟩ := (hr.after acts).sound.rest_of_idle hi
  have hq : ¬ Queued k ((new name s clock policy delivery).after acts) := by
    simp [Queued, Waiting, Starting, hp, hw]
  constructor
  · intro hs hd
    exact (htally.of_displaced hd).1 hs
  · intro hd
    by_contra hs
    obtain hq' | hd' := htally.of_not_served hs
    · exact hq hq'
    · exact hd hd'

theorem not_displaced_of_message :
    let r := new workerName (putStatus .registered Store.Entries.empty) 0 default (.fixed true)
    let acts : List Act :=
      [.handle (.newEndpoint ⟨"A"⟩ "default"), .work, .work, .work,
        .handle (.message .empty "default"), .answer (.registered .registered), .work, .work,
        .answer (.enqueued (.ok true)), .work]
    (r.after acts).worker.idle ∧ r.marks acts =
      [.wanted .registration, .begun .registration, .wanted .fetch, .begun .fetch] ∧
      ¬ Displaced .registration r acts ∧ ¬ Displaced .fetch r acts := by
  intro r acts
  have hi : (r.after acts).worker.idle := by decide +kernel
  have hm : r.marks acts = [.wanted .registration] ++ [.begun .registration] ++ [.wanted .fetch] ++
      [.begun .fetch] := by decide +kernel
  have hr : Served .registration (r.marks acts) := by
    rw [hm, served_concat_iff, served_concat_iff]
    exact .inr ⟨by decide, .inr ⟨by decide, served_concat_iff.2 (.inl rfl)⟩⟩
  have hf : Served .fetch (r.marks acts) := by
    rw [hm, served_concat_iff]
    exact .inl rfl
  exact ⟨hi, hm, (served_iff_not_displaced _ _ _ _ _ acts .registration hi).1 hr,
    (served_iff_not_displaced _ _ _ _ _ acts .fetch hi).1 hf⟩

/-- The message comes while the registration waits, which is then never started. -/
theorem not_served_of_message :
    let r := new workerName (putStatus .registered Store.Entries.empty) 0 default (.fixed true)
    let acts : List Act :=
      [.handle (.newEndpoint ⟨"A"⟩ "default"), .handle (.message .empty "default"), .work, .work,
        .work, .answer (.enqueued (.ok true)), .work]
    (r.after acts).worker.idle ∧
      r.marks acts = [.wanted .registration, .wanted .fetch, .begun .fetch] ∧
      ¬ Served .registration (r.marks acts) := by
  intro r acts
  have hm : r.marks acts = [.wanted .registration, .wanted .fetch, .begun .fetch] := by
    decide +kernel
  refine ⟨by decide +kernel, hm, ?_⟩
  rw [hm]
  intro h
  have := h [] _ rfl (by decide)
  simp at this

end PushKeeper.Receiver
