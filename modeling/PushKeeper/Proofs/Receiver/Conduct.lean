import PushKeeper.Proofs.Receiver.Faults
import PushKeeper.Proofs.Worker.Accounts

namespace PushKeeper.Receiver

open Registration (AlertKind Endpoint Status)
open Store (Access KeyValueStore on_bind)

def Act.isRequest : Act → Bool
  | .handle _ => true
  | .retry => true
  | .airGapped _ => true
  | .work => false
  | .answer _ => false
  | .clock _ => false
  | .delivery _ => false

def requests (acts : List Act) : List Act := acts.filter Act.isRequest

variable {σ : Type}

structure Asks (job : Option Job) (r r' : Receiver σ) : Prop where
  worker_eq : r'.worker = job.elim r.worker r.worker.submit
  inFlight_eq : r'.inFlight = r.inFlight
  history_grows : r.history <+: r'.history

def Quiet {α : Type} (work : Access (Receiver σ) α) : Prop :=
  ∀ r, Asks none r (work.on r).2

namespace Asks

variable {r r' r'' : Receiver σ} {job : Option Job}

theorem refl (r : Receiver σ) : Asks none r r :=
  ⟨rfl, rfl, List.prefix_rfl⟩

theorem trans (h : Asks none r r') (h' : Asks job r' r'') : Asks job r r'' := by
  obtain ⟨hw, hf, hp⟩ := h
  obtain ⟨hw', hf', hp'⟩ := h'
  have hw : r'.worker = r.worker := hw
  exact ⟨hw ▸ hw', hf'.trans hf, hp.trans hp'⟩

theorem note (n : Notice) (r : Receiver σ) : Asks none r (r.note n) :=
  ⟨rfl, rfl, List.prefix_append _ _⟩

theorem alert (kind : AlertKind) (r : Receiver σ) : Asks none r (r.alert kind) :=
  note _ r

theorem submit (job : Job) (r : Receiver σ) : Asks (some job) r (r.submit job) :=
  ⟨rfl, rfl, List.prefix_rfl⟩

theorem store (s : σ) (r : Receiver σ) : Asks none r { r with store := s } :=
  ⟨rfl, rfl, List.prefix_rfl⟩

end Asks

structure Frame (R : Receiver σ → Receiver σ → Prop) : Prop where
  refl (r : Receiver σ) : R r r
  trans {r r' r'' : Receiver σ} : R r r' → R r' r'' → R r r''
  store (s : σ) (r : Receiver σ) : R r { r with store := s }
  note (n : Notice) (r : Receiver σ) : R r (r.note n)

def Within {α : Type} (R : Receiver σ → Receiver σ → Prop) (work : Access (Receiver σ) α) : Prop :=
  ∀ r, R r (work.on r).2

theorem within_modify {R : Receiver σ → Receiver σ → Prop} {f : Receiver σ → Receiver σ}
    (h : ∀ r, R r (f r)) : Within R (modify f) :=
  h

namespace Frame

variable {α β : Type} {R : Receiver σ → Receiver σ → Prop} (hR : Frame R)
include hR

theorem pure (a : α) : Within R (pure a : Access (Receiver σ) α) :=
  hR.refl

theorem bind {x : Access (Receiver σ) α} {f : α → Access (Receiver σ) β} (hx : Within R x)
    (hf : ∀ a, Within R (f a)) : Within R (x >>= f) := by
  intro r
  have h := hx r
  rw [on_bind]
  rcases hr : x.on r with ⟨_ | a, r'⟩
  · simpa [hr] using h
  · rw [hr] at h
    exact hR.trans h (hf a r')

theorem ofStore (read : σ → Except Failure α) : Within R (ofStore read) :=
  hR.refl

theorem onStore (work : Access σ α) : Within R (onStore work) :=
  fun r => hR.store (work.on r.store).2 r

variable [KeyValueStore σ]

theorem publish (r : Receiver σ) : R r r.publish := by
  unfold Receiver.publish
  split
  · exact hR.note _ r
  · exact hR.refl r

theorem startRegistration (alerting : Bool) : Within R (startRegistration alerting) := by
  refine hR.bind (hR.ofStore _) fun x => ?_
  exact hR.pure _

theorem endRegistration (alerting : Bool) (outcome : Status) :
    Within R (endRegistration alerting outcome) := by
  refine hR.bind (hR.onStore _) fun counts => ?_
  cases counts with
  | false => exact hR.pure _
  | true =>
    refine hR.bind (within_modify hR.publish) fun _ => ?_
    by_cases h : (alerting && outcome != .registered) = true
    · rw [if_pos h]
      exact hR.bind (within_modify (hR.note _)) fun _ => hR.pure _
    · rw [if_neg h]
      exact hR.pure _

theorem startRetry : Within R startRetry := by
  refine hR.bind (hR.ofStore _) fun status => ?_
  by_cases hs : status = .airGapped
  · rw [if_pos hs]
    exact hR.pure _
  · rw [if_neg hs]
    refine hR.bind (hR.ofStore _) fun x => ?_
    cases x with
    | none => exact hR.endRegistration _ _
    | some e => exact hR.startRegistration _

theorem start (job : Job) : Within R job.start := by
  cases job with
  | register alerting => exact hR.startRegistration alerting
  | retry => exact hR.startRetry
  | fetch => exact fun r => hR.store r.startFetch.2.store r

theorem resume (task : InFlight) (reply : Reply) : Within R (task.resume reply) := by
  cases task <;> cases reply <;> first | exact hR.pure _ | exact hR.endRegistration _ _

end Frame

theorem Asks.frame : Frame (Asks none : Receiver σ → Receiver σ → Prop) where
  refl := refl
  trans := trans
  store := store
  note := note

variable [KeyValueStore σ]

theorem quiet_start (job : Job) : Quiet (job.start : Access (Receiver σ) _) :=
  Asks.frame.start job

theorem quiet_resume (task : InFlight) (reply : Reply) :
    Quiet (task.resume reply : Access (Receiver σ) _) :=
  Asks.frame.resume task reply

theorem Asks.publish (r : Receiver σ) : Asks none r r.publish :=
  Asks.frame.publish r

omit [KeyValueStore σ] in
theorem perform_cases {part : Access (Receiver σ) (Option InFlight)} (h : Quiet part)
    (r : Receiver σ) :
    ∃ r', Asks none r r' ∧
      ((∃ task, (part.on r).1 = .ok (some task) ∧ r.perform part = { r' with inFlight := some task }) ∨
        ∃ ending, r.perform part =
          { r' with inFlight := none, worker := r'.worker.finish ending }) := by
  refine ⟨(part.on r).2, h r, ?_⟩
  unfold perform
  split <;> simp_all

theorem exists_asks_followUp (before : Status) (r : Receiver σ) :
    ∃ job, ∀ w, Asks job { r with worker := w } (followUp before { r with worker := w }) := by
  cases before with
  | unconfigured => exact ⟨none, fun w => .publish _⟩
  | airGapped => exact ⟨none, fun w => (Asks.publish _).trans (.alert _ _)⟩
  | registered => exact ⟨some (.register true), fun w => .submit _ _⟩
  | internalError => exact ⟨some (.register false), fun w => .submit _ _⟩
  | missingEndpoint => exact ⟨some (.register false), fun w => .submit _ _⟩

theorem exists_asks_newEndpoint (e : Endpoint) (r : Receiver σ) :
    ∃ job, ∀ w, Asks job { r with worker := w } ((newEndpoint e).on { r with worker := w }).2 := by
  cases hs : Store.Values.status r.store with
  | error cause => exact ⟨none, fun w => by simpa [newEndpoint, on_bind, hs] using .refl _⟩
  | ok before =>
    simp only [newEndpoint, on_bind, on_ofStore, on_onStore, hs]
    generalize (Store.Values.replaceEndpoint e).on r.store = result
    obtain ⟨_ | changed, s⟩ := result
    · exact ⟨none, fun w => .store s _⟩
    · cases changed with
      | false => exact ⟨none, fun w => .store s _⟩
      | true =>
        obtain ⟨job, h⟩ := exists_asks_followUp before { r with store := s }
        exact ⟨job, fun w => (Asks.store s { r with worker := w }).trans (h w)⟩

theorem exists_asks_setAirGapped (enabled : Bool) (r : Receiver σ) :
    ∃ job, ∀ w,
      Asks job { r with worker := w } ((setAirGapped enabled).on { r with worker := w }).2 := by
  simp only [setAirGapped, on_bind, on_onStore]
  generalize (Store.Values.switchAirGapped enabled).on r.store = result
  obtain ⟨_ | switched, s⟩ := result
  · exact ⟨none, fun w => .store s _⟩
  · cases switched with
    | false => exact ⟨none, fun w => .store s _⟩
    | true =>
      have hp : ∀ w, Asks none { r with worker := w }
          ({ r with worker := w, store := s } : Receiver σ).publish :=
        fun w => (Asks.store s _).trans (.publish _)
      cases enabled with
      | true => exact ⟨none, hp⟩
      | false =>
        cases hx : Store.Values.endpoint s with
        | error cause => exact ⟨none, fun w => by simpa [on_bind, hx] using hp w⟩
        | ok x =>
          cases x with
          | none => exact ⟨none, fun w => by simpa [on_bind, hx] using hp w⟩
          | some e =>
            refine ⟨some (.register false), fun w => ?_⟩
            simpa [on_bind, hx] using (hp w).trans (.submit (.register false) _)

theorem exists_asks {a : Act} (ha : a.isRequest) (r : Receiver σ) :
    ∃ job, ∀ w, Asks job { r with worker := w } (act a { r with worker := w }) := by
  cases a with
  | handle event =>
    cases event with
    | newEndpoint e i => exact exists_asks_newEndpoint e r
    | registrationFailed i => exact ⟨none, fun w => .alert _ _⟩
    | unregistered i =>
      exact ⟨none, fun w =>
        Asks.frame.bind (Asks.frame.onStore _) (fun _ => within_modify .publish)
          { r with worker := w }⟩
    | message p i =>
      cases h : r.delivery.isActive r.store with
      | false => exact ⟨none, fun w => by simpa [act, handle, message, h] using .refl _⟩
      | true =>
        exact ⟨some .fetch, fun w => by simpa [act, handle, message, h] using .submit _ _⟩
  | retry => exact ⟨some .retry, fun w => .submit _ _⟩
  | airGapped enabled => exact exists_asks_setAirGapped enabled r
  | work => simp [Act.isRequest] at ha
  | answer reply => simp [Act.isRequest] at ha
  | clock time => simp [Act.isRequest] at ha
  | delivery d => simp [Act.isRequest] at ha

def Act.part? : Act → Receiver σ → Option (Access (Receiver σ) (Option InFlight))
  | .work, r => if r.inFlight.isNone then r.worker.current?.map Job.start else none
  | .answer reply, r => r.inFlight.map (·.resume reply)
  | _, _ => none

section

variable {a : Act} {r : Receiver σ} {part : Access (Receiver σ) (Option InFlight)}

theorem Act.part?_cases (h : a.part? r = some part) :
    (a = .work ∧ r.inFlight = none ∧ ∃ job, r.worker.current? = some job ∧ part = job.start) ∨
      ∃ reply task, a = .answer reply ∧ r.inFlight = some task ∧ part = task.resume reply := by
  cases a with
  | work =>
    cases hf : r.inFlight with
    | some task => simp [Act.part?, hf] at h
    | none =>
      obtain ⟨job, hw, rfl⟩ : ∃ job, r.worker.current? = some job ∧ job.start = part := by
        simpa [Act.part?, hf] using h
      exact .inl ⟨rfl, rfl, job, hw, rfl⟩
  | answer reply =>
    obtain ⟨task, hf, rfl⟩ : ∃ task, r.inFlight = some task ∧ task.resume reply = part := by
      simpa [Act.part?] using h
    exact .inr ⟨reply, task, rfl, hf, rfl⟩
  | _ => cases h

theorem act_eq_perform (h : a.part? r = some part) : act a r = r.perform part := by
  obtain ⟨rfl, hf, job, hw, rfl⟩ | ⟨reply, task, rfl, hf, rfl⟩ := Act.part?_cases h
  · simp [act, advance, hw, hf]
  · simp [act, answer, hf]

theorem within_part {R : Receiver σ → Receiver σ → Prop} (hR : Frame R) (h : a.part? r = some part) :
    Within R part := by
  obtain ⟨-, -, job, -, rfl⟩ | ⟨reply, task, -, -, rfl⟩ := Act.part?_cases h
  · exact hR.start job
  · exact hR.resume task reply

theorem act_of_part?_eq_none (hp : a.part? r = none) (ha : a.isRequest = false) :
    (a = .work ∧ r.worker.current? = none ∧ act a r = { r with worker := r.worker.advance }) ∨
      (a = .work → r.worker.current? ≠ none) ∧ ∃ clock delivery, act a r = { r with clock, delivery } := by
  cases a with
  | work =>
    cases hw : r.worker.current? with
    | none => exact .inl ⟨rfl, rfl, act_work_of_rest hw⟩
    | some job =>
      cases hf : r.inFlight with
      | none => simp [Act.part?, hw, hf] at hp
      | some task =>
        have he : act .work r = r := by simp [act, advance, hw, hf]
        rw [← hf]
        exact .inr ⟨by simp, r.clock, r.delivery, he⟩
  | answer reply =>
    have hf : r.inFlight = none := by simpa [Act.part?] using hp
    have he : act (.answer reply) r = r := by simp [act, answer, hf]
    exact .inr ⟨by simp, r.clock, r.delivery, he⟩
  | clock time => exact .inr ⟨by simp, time, r.delivery, rfl⟩
  | delivery d => exact .inr ⟨by simp, r.clock, d, rfl⟩
  | handle | retry | airGapped => simp [Act.isRequest] at ha

end

def Act.job? (a : Act) (r : Receiver σ) : Option Job :=
  (act a { r with worker := .new r.worker.name }).worker.pending

def Act.ends (a : Act) (r : Receiver σ) : Bool :=
  r.worker.current?.isSome && (act a r).worker.current?.isNone

def Act.ended? (a : Act) (r : Receiver σ) : Option Job :=
  if a.ends r then r.worker.current? else none

def toWorker (a : Act) (r : Receiver σ) : List (Worker.Act Job) :=
  match a, r.worker.current? with
  | .work, none => [.advance]
  | a, _ => (a.job? r).toList.map .submit ++ if a.ends r then [.finish .done] else []

variable {r : Receiver σ} {a : Act}

theorem asks_request (ha : a.isRequest) (r : Receiver σ) : Asks (a.job? r) r (act a r) := by
  obtain ⟨job, h⟩ := exists_asks ha r
  have hj : a.job? r = job := by
    rw [Act.job?, (h _).worker_eq]
    cases job <;> simp [Worker.new, Worker.submit]
  rw [hj]
  exact h r.worker

omit [KeyValueStore σ] in
theorem job?_perform {part : Access (Receiver σ) (Option InFlight)} (h : Quiet part)
    (r : Receiver σ) : (r.perform part).worker.pending = r.worker.pending := by
  obtain ⟨r', hr, ⟨task, -, hp⟩ | ⟨ending, hp⟩⟩ := perform_cases h r
  · simp [hp, hr.worker_eq]
  · simp [hp, hr.worker_eq]

theorem job?_work (r : Receiver σ) : Act.job? .work r = none := by
  simp [Act.job?, act, advance, Worker.new, Worker.current?, Worker.advance]

theorem job?_answer (reply : Reply) (r : Receiver σ) : Act.job? (.answer reply) r = none := by
  unfold Act.job? act answer
  cases hf : r.inFlight with
  | none => rfl
  | some task => exact job?_perform (quiet_resume task reply) _

theorem Act.isRequest_of_job? {job : Job} (h : a.job? r = some job) : a.isRequest := by
  cases a with
  | work => simp [job?_work] at h
  | answer reply => simp [job?_answer] at h
  | clock time => simp [Act.job?, act, Worker.new] at h
  | delivery d => simp [Act.job?, act, Worker.new] at h
  | _ => rfl

theorem toWorker_of_quiet (hj : a.job? r = none) (hc : r.worker.current?.isSome) :
    toWorker a r = if (act a r).worker.current?.isNone then [.finish .done] else [] := by
  obtain ⟨job, hc⟩ := Option.isSome_iff_exists.1 hc
  unfold toWorker
  split
  · simp_all
  · simp [hj, Act.ends, hc]

inductive Course (r : Receiver σ) : Act → Receiver σ → Prop
  | request {a : Act} (ha : a.isRequest) : Course r a (act a r)
  | moved (hc : r.worker.current? = none) : Course r .work { r with worker := r.worker.advance }
  | part {a : Act} {p : Access (Receiver σ) (Option InFlight)} (hj : a.job? r = none)
      (hc : r.worker.current?.isSome) (hp : Quiet p) (ha : act a r = r.perform p) :
      Course r a (r.perform p)
  | other {a : Act} {r' : Receiver σ} (ht : toWorker a r = []) (hw : r'.worker = r.worker)
      (hf : r'.inFlight = r.inFlight) (hh : r'.history = r.history) : Course r a r'

theorem course (hr : Steady r) (a : Act) : Course r a (act a r) := by
  cases hp : a.part? r with
  | some part =>
    have ha := act_eq_perform hp
    rw [ha]
    obtain ⟨rfl, -, job, hw, -⟩ | ⟨reply, task, rfl, hf, -⟩ := Act.part?_cases hp
    · exact .part (job?_work r) (by simp [hw]) (within_part Asks.frame hp) ha
    · exact .part (job?_answer reply r) (hr.current_of_inFlight (by simp [hf]))
        (within_part Asks.frame hp) ha
  | none =>
    cases ha : a.isRequest with
    | true => exact .request ha
    | false =>
      obtain ⟨rfl, hw, he⟩ | ⟨hw, clock, delivery, he⟩ := act_of_part?_eq_none hp ha
      · rw [he]
        exact .moved hw
      · refine .other ?_ (by rw [he]) (by rw [he]) (by rw [he])
        have hj : a.job? r = none := Option.eq_none_iff_forall_ne_some.2 fun job hj => by
          simp [Act.isRequest_of_job? hj] at ha
        unfold toWorker
        split
        next hc => exact absurd hc (hw rfl)
        next => cases hc : r.worker.current? <;> simp [hj, Act.ends, he, hc]

theorem toWorker_request (ha : a.isRequest) (r : Receiver σ) :
    toWorker a r = (a.job? r).toList.map .submit := by
  have hc : (act a r).worker.current? = r.worker.current? := by
    rw [(asks_request ha r).worker_eq]
    cases a.job? r <;> simp
  have he : a.ends r = false := by
    cases hw : r.worker.current? <;> simp [Act.ends, hc, hw]
  unfold toWorker
  split
  · simp [Act.isRequest] at ha
  · simp [he]

theorem worker_act (hr : Steady r) (a : Act) :
    (act a r).worker = r.worker.after (toWorker a r) := by
  have h := course hr a
  generalize hact : act a r = r' at h
  cases h with
  | request ha =>
    rw [toWorker_request ha, (asks_request ha r).worker_eq]
    cases a.job? r <;> rfl
  | moved hc => simp [toWorker, hc, Worker.after, Worker.act]
  | @part a p hj hc hp ha =>
    rw [toWorker_of_quiet hj hc, ha]
    obtain ⟨r', hr', ⟨task, -, he⟩ | ⟨ending, he⟩⟩ := perform_cases hp r
    · have hw : (r.perform p).worker = r.worker := by simp [he, hr'.worker_eq]
      simp [hw, Option.isNone_iff_eq_none, Option.isSome_iff_ne_none.1 hc]
    · have hw : (r.perform p).worker = r.worker.finish ending := by simp [he, hr'.worker_eq]
      simp only [hw, Worker.finish_current?, Option.isNone_none, if_true]
      rfl
  | other ht hw hf hh => rw [ht, hw, Worker.after_nil]

theorem close_not_mem_toWorker (a : Act) (r : Receiver σ) : .close ∉ toWorker a r := by
  unfold toWorker
  split
  · simp
  · simp only [List.mem_append, List.mem_map]
    rintro (⟨job, -, h⟩ | h)
    · cases h
    · split at h <;> simp at h

theorem toWorker_cases (a : Act) (r : Receiver σ) :
    (toWorker a r = [.advance] ∧ a.job? r = none ∧ r.worker.current? = none) ∨
      toWorker a r =
        (a.job? r).toList.map .submit ++ if a.ends r then [.finish .done] else [] := by
  unfold toWorker
  split
  · rename_i hc
    exact .inl ⟨rfl, job?_work r, hc⟩
  · exact .inr rfl

theorem accepted_toWorker (a : Act) (r : Receiver σ) :
    Worker.accepted (toWorker a r) = (a.job? r).toList := by
  obtain ⟨ht, hj, -⟩ | ht := toWorker_cases a r
  · rw [ht, hj]
    rfl
  · rw [ht]
    cases a.job? r <;> cases a.ends r <;> rfl

theorem ends_toWorker (a : Act) (r : Receiver σ) :
    Worker.ends (r.worker.journal (toWorker a r)) = (a.ended? r).toList := by
  obtain ⟨ht, -, hc⟩ | ht := toWorker_cases a r
  · have hj : r.worker.journal [.advance] = r.worker.advance.current?.toList.map .started := by
      simp [Worker.journal, Worker.incidents, hc]
    rw [ht, hj]
    cases r.worker.advance.current? <;> simp [Act.ended?, hc, Worker.ends, Worker.Incident.ended?]
  · -- a submission ends nothing and leaves the task at work where it is
    have hsubmit : ∀ job acts, Worker.ends (r.worker.journal (.submit job :: acts)) =
        Worker.ends ((Worker.act (.submit job) r.worker).journal acts) := by
      intro job acts
      rw [Worker.journal_cons, Worker.ends_append, Worker.ends_incidents_submit, List.nil_append]
    have hfinish : ∀ w : Worker Job, w.current? = r.worker.current? →
        Worker.ends (w.journal (if a.ends r then [.finish .done] else [])) =
          (a.ended? r).toList := by
      intro w hw
      cases he : a.ends r with
      | false => simp [Act.ended?, he, Worker.ends]
      | true =>
        cases hc : r.worker.current? <;>
          simp [Act.ended?, he, Worker.journal, Worker.incidents, hw, hc, Worker.ends,
            Worker.Incident.ended?]
    rw [ht]
    cases a.job? r with
    | none => exact hfinish r.worker rfl
    | some job =>
      rw [Option.toList_some, List.map_singleton, List.singleton_append, hsubmit]
      exact hfinish _ (Worker.submit_current? job r.worker)

theorem history_grows (hr : Steady r) (a : Act) : r.history <+: (act a r).history := by
  have h := course hr a
  generalize hact : act a r = r' at h
  cases h with
  | request ha => exact (asks_request ha r).history_grows
  | moved hc => exact List.prefix_rfl
  | part hj hc hp ha =>
    obtain ⟨r', hr', ⟨task, -, he⟩ | ⟨ending, he⟩⟩ := perform_cases hp r
    · rw [he]
      exact hr'.history_grows
    · rw [he]
      exact hr'.history_grows
  | other ht hw hf hh => exact hh ▸ List.prefix_rfl

theorem Steady.act (hr : Steady r) (a : Act) : Steady (act a r) := by
  have hw := worker_act hr a
  refine ⟨?_, ?_, ?_⟩
  · rw [hw]
    exact hr.sound.after _
  · rw [hw]
    exact Worker.closed_after hr.closed_eq (close_not_mem_toWorker a r)
  · have h := course hr a
    clear hw
    generalize hact : Receiver.act a r = r' at h
    intro hf
    cases h with
    | request ha =>
      have h := asks_request ha r
      have hc := hr.current_of_inFlight (by rwa [← h.inFlight_eq])
      rw [h.worker_eq]
      cases a.job? r <;> simpa using hc
    | moved hc =>
      have := hr.current_of_inFlight hf
      simp [hc] at this
    | part hj hc hp ha =>
      obtain ⟨r', hr', ⟨task, -, he⟩ | ⟨ending, he⟩⟩ := perform_cases hp r
      · simpa [he, hr'.worker_eq] using hc
      · simp [he] at hf
    | other ht hw hf' hh =>
      rw [hw]
      exact hr.current_of_inFlight (by rwa [← hf'])

end PushKeeper.Receiver
