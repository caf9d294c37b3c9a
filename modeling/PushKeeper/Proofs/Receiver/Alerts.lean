import PushKeeper.Proofs.Receiver.Causes
import PushKeeper.Proofs.Receiver.Silence

namespace PushKeeper.Receiver

open Registration (AlertKind Endpoint Snapshot Status)
open Store (Faultless KeyValueStore)

/-- What stands in a history directly before each alert of a kind; `before` stands before the history. -/
def occasions (kind : AlertKind) (before : Option Notice) : List Notice → List (Option Notice)
  | [] => []
  | n :: rest => (if n = .alerted kind then [before] else []) ++ occasions kind (some n) rest

section

variable (kind : AlertKind) (before : Option Notice)

theorem occasions_append (h k : List Notice) :
    occasions kind before (h ++ k) =
      occasions kind before h ++ occasions kind (h.getLast?.or before) k := by
  induction h generalizing before with
  | nil => rfl
  | cons n h ih => simp [occasions, ih, List.getLast?_cons]

theorem length_occasions (h : List Notice) :
    (occasions kind before h).length = h.count (.alerted kind) := by
  induction h generalizing before with
  | nil => rfl
  | cons n h ih =>
    rw [occasions, List.length_append, ih, List.count_cons]
    by_cases hn : n = .alerted kind <;> simp [hn, Nat.add_comm]

theorem occasions_eq_nil {h : List Notice} (hn : .alerted kind ∉ h) : occasions kind before h = [] := by
  rw [← List.length_eq_zero_iff, length_occasions, List.count_eq_zero_of_not_mem hn]

end

def Act.reportsFailure : Act → Bool
  | .handle (.registrationFailed _) => true
  | _ => false

/-- A task that was queued by the act of this number has failed: the relay's answer was recorded while this
endpoint was stored. -/
structure Setback where
  cause : Nat
  recording : Recording
  endpoint : Option Endpoint
  deriving DecidableEq

def Setback.snapshot (b : Setback) : Snapshot := ⟨b.endpoint, b.recording.outcome⟩

variable {σ : Type} [KeyValueStore σ] [Faultless σ]

def renewal (status : Status) : Act → Receiver σ → List Endpoint
  | .handle (.newEndpoint e _), r => if r.endpoint ≠ some e ∧ r.status = status then [e] else []
  | _, _ => []

def renewals (r : Receiver σ) (status : Status) (acts : List Act) : List Endpoint :=
  Run.notes act (renewal status) r acts

def setback (a : Act) (s : Numbered σ) : List Setback :=
  match recording a s.receiver, Numbered.ended a s with
  | [recorded], [(n, job)] =>
    if job.tells && recorded.outcome != .registered then [⟨n, recorded, s.receiver.endpoint⟩] else []
  | _, _ => []

def setbacks (r : Receiver σ) (acts : List Act) : List Setback :=
  Run.notes Numbered.act setback (numbered r) acts

inductive Tells (r : Receiver σ) : Act → List Notice → Prop
  | reported {i} : Tells r (.handle (.registrationFailed i)) [.alerted .registrationFailed]
  | shutOut {e i} (h : r.endpoint ≠ some e) (hs : r.status = .airGapped) :
      Tells r (.handle (.newEndpoint e i))
        [.published ⟨some e, .airGapped⟩, .alerted .endpointChangedAirGapped]
  | recorded {x alerting outcome} (hf : r.inFlight = some (.registering x alerting))
      (hs : r.status ≠ .airGapped) :
      Tells r (.answer (.registered outcome))
        (.published ⟨r.endpoint, outcome⟩ ::
          if alerting && outcome != .registered then [.alerted .endpointChangedError] else [])
  | other {a told} (ht : ∀ kind, .alerted kind ∉ told) (hr : a.reportsFailure = false)
      (hc : renewal .airGapped a r = []) (hn : recording a r = []) : Tells r a told

variable {r r' : Receiver σ} {a : Act}

theorem Step.tells (h : Step r a r') : ∃ told, r'.history = r.history ++ told ∧ Tells r a told := by
  have hn := h.recording_eq
  cases h with
  | registrationFailed => exact ⟨_, rfl, .reported⟩
  | toldAirGapped h hs => exact ⟨_, by simp [hs], .shutOut h hs⟩
  | recorded hf hs => exact ⟨_, by simp [history_tellFailure], .recorded hf hs⟩
  | sameEndpoint h => exact ⟨[], by simp, .other (by simp) rfl (by simp [renewal, h]) rfl⟩
  | @told e i h hs =>
    exact ⟨[.published ⟨some e, .unconfigured⟩], by simp [hs],
      .other (by simp) rfl (by simp [renewal, hs]) rfl⟩
  | queuedAlerting h hs => exact ⟨[], by simp, .other (by simp) rfl (by simp [renewal, hs]) rfl⟩
  | queued h hs =>
    exact ⟨[], by simp, .other (by simp) rfl (by rcases hs with hs | hs <;> simp [renewal, hs]) rfl⟩
  | unregistered => exact ⟨[.published ⟨none, r.status⟩], by simp, .other (by simp) rfl rfl rfl⟩
  | entered | left | leftBare | missed =>
    exact ⟨[.published ⟨r.endpoint, _⟩], by simp; rfl, .other (by simp) rfl rfl rfl⟩
  | uncalled hf => exact ⟨[], by simp, .other (by simp) rfl rfl (hn.resolve_right (by simp [hf]))⟩
  | discarded hf hs => exact ⟨[], by simp, .other (by simp) rfl rfl (hn.resolve_right (by simp [hs]))⟩
  | @misfit task reply hf h =>
    refine ⟨[], by simp, .other (by simp) rfl rfl ?_⟩
    cases task <;> cases reply <;> simp_all [recording, InFlight.fits]
  | _ => exact ⟨[], by simp, .other (by simp) rfl rfl rfl⟩

def Loyal (r : Receiver σ) : Prop :=
  ∀ x alerting, r.inFlight = some (.registering x alerting) →
    ∃ job, r.worker.current? = some job ∧ job.tells = alerting

omit [KeyValueStore σ] [Faultless σ] in
theorem Loyal.of_eq (hl : Loyal r) (hw : r'.worker.current? = r.worker.current?)
    (hf : r'.inFlight = r.inFlight) : Loyal r' := by
  intro x alerting ht
  rw [hw]
  exact hl x alerting (hf ▸ ht)

theorem Loyal.step (hr : Steady r) (hl : Loyal r) (h : Step r a r') : Loyal r' := by
  cases h with
  | registering hw hf =>
    intro x alerting ht
    obtain ⟨-, rfl⟩ : r.endpoint = x ∧ _ = alerting := by simpa using ht
    exact ⟨_, hw, rfl⟩
  | retrying hw hf hs he =>
    intro x alerting ht
    obtain ⟨-, rfl⟩ : r.endpoint = x ∧ false = alerting := by simpa using ht
    exact ⟨_, hw, rfl⟩
  | moved hw =>
    have hf : r.inFlight = none := by simpa [hw] using hr.current_of_inFlight
    intro x alerting ht
    simp [hf] at ht
  | gaveUp | missed | fetching | recorded | discarded | enqueued | refused | pulled =>
    intro x alerting ht
    simp at ht
  | _ => exact hl.of_eq (by simp) (by simp)

theorem job?_eq_register_true (h : a.job? r = some (.register true)) :
    ∃ e i, a = .handle (.newEndpoint e i) ∧ r.endpoint ≠ some e ∧ r.status = .registered := by
  have hstep := step_act { r with worker := .new r.worker.name } a
  rw [Act.job?] at h
  generalize act a { r with worker := .new r.worker.name } = r' at h hstep
  cases hstep with
  | @queuedAlerting e i he hs => exact ⟨e, i, rfl, he, hs⟩
  | _ => simp_all [Worker.new, Worker.submit, Worker.advance, Worker.current?]

section

variable {told : List Notice} (h : Tells r a told)
include h

theorem Tells.count_eq :
    told.count (.alerted .registrationFailed) = if a.reportsFailure then 1 else 0 := by
  cases h with
  | reported => rfl
  | shutOut h hs => simp [Act.reportsFailure]
  | recorded hf hs => split <;> simp [Act.reportsFailure]
  | other ht hr hc hn => simp [hr, List.count_eq_zero_of_not_mem (ht _)]

theorem Tells.occasions_renewal (before : Option Notice) :
    occasions .endpointChangedAirGapped before told =
      (renewal .airGapped a r).map fun e => some (.published ⟨some e, .airGapped⟩) := by
  cases h with
  | reported => rfl
  | shutOut h hs => simp [occasions, renewal, h, hs]
  | recorded hf hs => exact occasions_eq_nil _ _ (by split <;> simp)
  | other ht hr hc hn => rw [hc, occasions_eq_nil _ _ (ht _), List.map_nil]

end

theorem Tells.occasions_setback {s : Numbered σ} {told : List Notice} (h : Tells s.receiver a told)
    (hs : Numbered.Faithful s) (hl : Loyal s.receiver) (before : Option Notice) :
    occasions .endpointChangedError before told =
      (setback a s).map fun b => some (.published b.snapshot) := by
  cases h with
  | reported => rfl
  | shutOut h hs => rfl
  | @recorded x alerting outcome hf hg =>
    obtain ⟨job, hw, rfl⟩ := hl x alerting hf
    obtain ⟨⟨n, job⟩, ht, rfl⟩ : ∃ task, s.tasks.current? = some task ∧ task.2 = job := by
      simpa [hs.current?_eq] using hw
    have hact : act (.answer (.registered outcome)) s.receiver =
        ((s.receiver.withStatus outcome).publish.tellFailure job.tells outcome).done := by
      simp [act, answer, hf, perform, InFlight.resume, on_endRegistration, hg, done]
    have hended : Numbered.ended (.answer (.registered outcome)) s = [(n, job)] := by
      simp [Numbered.ended, Act.ends, hw, hact, ht]
    rw [setback, recording_registering outcome hf hg, hended]
    by_cases hworth : (job.tells && outcome != .registered) = true
    · simp [occasions, hworth, Setback.snapshot]
    · simp [occasions, hworth]
  | other ht hr hc hn =>
    rw [occasions_eq_nil _ _ (ht _), setback, hn]
    rfl

structure Accounted (r : Receiver σ) (acts : List Act) : Prop where
  loyal : Loyal (r.after acts)
  count_eq : (r.after acts).history.count (.alerted .registrationFailed) = acts.countP Act.reportsFailure
  occasions_renewals : occasions .endpointChangedAirGapped none (r.after acts).history =
    (r.renewals .airGapped acts).map fun e => some (.published ⟨some e, .airGapped⟩)
  occasions_setbacks : occasions .endpointChangedError none (r.after acts).history =
    (r.setbacks acts).map fun b => some (.published b.snapshot)

variable {acts : List Act}

theorem renewals_concat (r : Receiver σ) (status : Status) (acts : List Act) (a : Act) :
    r.renewals status (acts ++ [a]) = r.renewals status acts ++ renewal status a (r.after acts) := by
  simp [renewals, after]

theorem setbacks_concat (r : Receiver σ) (acts : List Act) (a : Act) :
    r.setbacks (acts ++ [a]) = r.setbacks acts ++ setback a ((numbered r).after acts) := by
  simp [setbacks, Numbered.after]

theorem Accounted.concat (hr : Numbered.Faithful (numbered r)) (h : Accounted r acts) (a : Act) :
    Accounted r (acts ++ [a]) := by
  obtain ⟨hl, hcount, hrenewals, hsetbacks⟩ := h
  have hs := hr.after acts
  have hrec : ((numbered r).after acts).receiver = r.after acts := Numbered.receiver_after _ _
  have hstep := step_concat r acts a
  obtain ⟨told, hhistory, htells⟩ := hstep.tells
  constructor
  · exact hl.step (hrec ▸ hs.steady) hstep
  · rw [hhistory, List.count_append, hcount, htells.count_eq, List.countP_append, List.countP_singleton]
  · rw [hhistory, occasions_append, hrenewals, htells.occasions_renewal, renewals_concat, List.map_append]
  · rw [← hrec] at hl htells
    rw [hhistory, occasions_append, hsetbacks, htells.occasions_setback hs hl, setbacks_concat,
      List.map_append]

theorem accounted (hr : Numbered.Faithful (numbered r)) (hf : r.inFlight = none) (hh : r.history = [])
    (acts : List Act) : Accounted r acts := by
  induction acts using List.reverseRecOn with
  | nil =>
    constructor
    · intro x alerting ht
      simp [hf] at ht
    · simp [hh]
    · simp [hh, occasions, renewals]
    · simp [hh, occasions, setbacks]
  | append_singleton acts a ih => exact ih.concat hr a

theorem setback_cases (a : Act) (s : Numbered σ) :
    setback a s = [] ∨ ∃ b job, setback a s = [b] ∧ recording a s.receiver = [b.recording] ∧
      Numbered.ended a s = [(b.cause, job)] ∧ job.tells = true ∧ b.recording.outcome ≠ .registered := by
  unfold setback
  split
  next recorded n job hrec hended =>
    split
    next h =>
      obtain ⟨ht, ho⟩ : job.tells = true ∧ recorded.outcome ≠ .registered := by simpa using h
      exact .inr ⟨_, job, rfl, hrec, hended, ht, ho⟩
    next => exact .inl rfl
  next => exact .inl rfl

theorem setbacks_sublist_recordings (r : Receiver σ) (acts : List Act) :
    ((r.setbacks acts).map Setback.recording).Sublist (r.recordings acts) := by
  induction acts using List.reverseRecOn with
  | nil => exact .slnil
  | append_singleton acts a ih =>
    rw [setbacks_concat, List.map_append, recordings_append, recordings_singleton]
    refine ih.append ?_
    obtain hn | ⟨b, job, hb, hrec, -, -, -⟩ := setback_cases a ((numbered r).after acts)
    · rw [hn]
      exact List.nil_sublist _
    · rw [Numbered.receiver_after] at hrec
      rw [hb, show recording a (r.after acts) = _ from hrec]
      exact .refl _

theorem setbacks_sublist_endings (r : Receiver σ) (acts : List Act) :
    ((r.setbacks acts).map Setback.cause).Sublist (((numbered r).endings acts).map Prod.fst) := by
  induction acts using List.reverseRecOn with
  | nil => exact .slnil
  | append_singleton acts a ih =>
    rw [setbacks_concat, List.map_append, Numbered.endings_concat, List.map_append]
    refine ih.append ?_
    obtain hn | ⟨b, job, hb, -, hended, -, -⟩ := setback_cases a ((numbered r).after acts)
    · rw [hn]
      exact List.nil_sublist _
    · rw [hb, hended]
      exact .refl _

theorem exists_newEndpoint_of_mem_setbacks (hr : Numbered.Faithful (numbered r)) {b : Setback}
    (hb : b ∈ r.setbacks acts) :
    b.recording.outcome ≠ .registered ∧ ∃ before e i rest,
      acts = before ++ .handle (.newEndpoint e i) :: rest ∧ before.length = b.cause ∧
        (r.after before).endpoint ≠ some e ∧ (r.after before).status = .registered := by
  obtain ⟨before, a, rest, rfl, hmem⟩ := (Run.mem_notes_iff _ _ _).1 hb
  rw [← Numbered.after] at hmem
  obtain hn | ⟨b', job, hb', -, hended, ht, ho⟩ := setback_cases a ((numbered r).after before)
  · simp [hn] at hmem
  · obtain rfl : b = b' := by simpa [hb'] using hmem
    refine ⟨ho, ?_⟩
    -- the task that ended was queued before, with its number
    have hline : (b.cause, job) ∈ ((numbered r).after before).tasks.line := by
      refine List.mem_append_left _ ?_
      unfold Numbered.ended at hended
      split at hended
      · rw [hended]
        exact List.mem_singleton_self _
      · cases hended
    have hqueued := (Numbered.endings_line_sublist hr before).subset (List.mem_append_right _ hline)
    rw [show (numbered r).tasks.line = [] from rfl, List.nil_append] at hqueued
    obtain ⟨earlier, c, later, rfl, hlength, hjob⟩ := Numbered.mem_queued_iff.1 hqueued
    obtain rfl : job = .register true := by cases job <;> simp_all [Job.tells]
    obtain ⟨e, i, rfl, he, hs⟩ := job?_eq_register_true hjob
    exact ⟨earlier, e, i, later ++ a :: rest, by simp, by simpa [numbered] using hlength.symm, he, hs⟩

/-- Every alert of a run goes back to one reason, and every reason raises one:

* an alert that the registration failed, for each such report of the transport;
* an alert that the endpoint changed while the relay was shut out, for each endpoint that comes then and is not
  the stored one, right after the snapshot of it;
* an alert that a changed endpoint was not registered, for each task that fails among those that endpoints
  queued which came while registered and were not the stored ones, right after the snapshot with the answer of
  the relay that was recorded. No two of these go back to the same endpoint.

Tasks are told apart by the numbers of the acts that queued them; without the numbers they are those of the
receiver's worker. -/
theorem alerts_accounted (name : String) (s : σ) (clock : UInt64) (policy : Fetch.Policy)
    (delivery : Fetch.Delivery) (acts : List Act) :
    let r := new name s clock policy delivery
    let history := (r.after acts).history
    history.count (.alerted .registrationFailed) = acts.countP Act.reportsFailure ∧
      occasions .endpointChangedAirGapped none history =
        (r.renewals .airGapped acts).map (fun e => some (.published ⟨some e, .airGapped⟩)) ∧
      occasions .endpointChangedError none history =
        (r.setbacks acts).map (fun b => some (.published b.snapshot)) ∧
      ((r.setbacks acts).map Setback.recording).Sublist (r.recordings acts) ∧
      ((r.setbacks acts).map Setback.cause).Pairwise (· < ·) ∧
      (∀ b ∈ r.setbacks acts, b.recording.outcome ≠ .registered ∧ ∃ before e i rest,
        acts = before ++ .handle (.newEndpoint e i) :: rest ∧ before.length = b.cause ∧
          (r.after before).endpoint ≠ some e ∧ (r.after before).status = .registered) ∧
      ((numbered r).after acts).tasks.map Prod.snd = (r.after acts).worker := by
  intro r history
  have hr : Numbered.Faithful (numbered r) :=
    Numbered.faithful_numbered name s clock policy delivery
  have h : Accounted r acts := accounted hr rfl rfl acts
  have hworker := (hr.after acts).tasks_eq
  rw [Numbered.receiver_after] at hworker
  refine ⟨h.count_eq, h.occasions_renewals, h.occasions_setbacks, setbacks_sublist_recordings r acts,
    ?_, fun b hb => exists_newEndpoint_of_mem_setbacks hr hb, hworker⟩
  exact (Numbered.pairwise_endings hr rfl acts).sublist (setbacks_sublist_endings r acts)

example :
    let s := Store.Values.putEndpoint ⟨"A"⟩ (Store.Values.putStatus .registered Store.Entries.empty)
    let r := new "registration" s 0 default (.fixed true)
    let acts : List Act :=
      [.handle (.newEndpoint ⟨"B"⟩ "default"), .work, .work, .work, .handle (.newEndpoint ⟨"C"⟩ "default"),
        .answer (.registered .internalError), .work, .work, .answer (.registered .missingEndpoint)]
    r.setbacks acts =
      [⟨0, ⟨some ⟨"B"⟩, .internalError⟩, some ⟨"C"⟩⟩, ⟨4, ⟨some ⟨"C"⟩, .missingEndpoint⟩, some ⟨"C"⟩⟩] := by
  decide +kernel

end PushKeeper.Receiver
