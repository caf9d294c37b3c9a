import PushKeeper.Proofs.Receiver.Settling
import PushKeeper.Proofs.Receiver.Silence

namespace PushKeeper.Receiver

open Registration (AlertKind Endpoint Status)
open Store (Faultless KeyValueStore)
open Store.Values

/-- What is stored, what others were told, what the relay was called with, and its answers to come. A
relay that has run out of them answers that the endpoint is registered. -/
structure Table where
  endpoint : Option Endpoint
  status : Status
  history : List Notice
  calls : List (Option Endpoint)
  script : List Status
  deriving DecidableEq

namespace Table

def publish (t : Table) : Table :=
  { t with history := t.history ++ [.published ⟨t.endpoint, t.status⟩] }

def alert (kind : AlertKind) (t : Table) : Table :=
  { t with history := t.history ++ [.alerted kind] }

def conclude (alerting : Bool) (t : Table) : Table :=
  let outcome := t.script.headD .registered
  let t := { t with status := outcome, script := t.script.tail }.publish
  if alerting && outcome != .registered then t.alert .endpointChangedError else t

def register (alerting : Bool) (t : Table) : Table :=
  { t with calls := t.calls ++ [t.endpoint] }.conclude alerting

def retry (t : Table) : Table :=
  if t.status = .airGapped then t
  else if t.endpoint.isNone then { t with status := .missingEndpoint }.publish
  else t.register false

def newEndpoint (e : Endpoint) (t : Table) : Table :=
  if t.endpoint = some e then t
  else
    let t' := { t with endpoint := some e }
    match t.status with
    | .airGapped => t'.publish.alert .endpointChangedAirGapped
    | .unconfigured => t'.publish
    | .registered => t'.register true
    | .internalError => t'.register false
    | .missingEndpoint => t'.register false

def airGapped (enabled : Bool) (t : Table) : Table :=
  if decide (t.status = .airGapped) = enabled then t
  else if enabled then { t with status := .airGapped }.publish
  else
    let t' := { t with status := .unconfigured }.publish
    if t.endpoint.isSome then t'.register false else t'

/-- The row of a request. A message shows in none of this. -/
def step (t : Table) : Act → Table
  | .handle (.newEndpoint e _) => t.newEndpoint e
  | .handle (.registrationFailed _) => t.alert .registrationFailed
  | .handle (.unregistered _) => { t with endpoint := none }.publish
  | .handle (.message ..) => t
  | .retry => t.retry
  | .airGapped enabled => t.airGapped enabled
  | .work => t
  | .answer _ => t
  | .clock _ => t
  | .delivery _ => t

def work (t : Table) : Job → Table
  | .register alerting => t.register alerting
  | .retry => t.retry
  | .fetch => t

end Table

variable {σ : Type}

def outcome : Act → Receiver σ → List Status
  | .answer (.registered outcome), r =>
    match r.inFlight with
    | some (.registering ..) => [outcome]
    | _ => []
  | _, _ => []

variable [KeyValueStore σ]

def outcomes (r : Receiver σ) (acts : List Act) : List Status :=
  Run.notes act outcome r acts

/-- Each request finds the worker idle. -/
def Settled (r : Receiver σ) : List Act → Prop
  | [] => True
  | a :: acts => (a.isRequest → r.worker.idle) ∧ Settled (act a r) acts

instance decidableSettled : (r : Receiver σ) → (acts : List Act) → Decidable (Settled r acts)
  | _, [] => .isTrue trivial
  | r, a :: acts =>
    have := decidableSettled (act a r) acts
    inferInstanceAs (Decidable ((a.isRequest → r.worker.idle) ∧ Settled (act a r) acts))

theorem settled_append_iff {r : Receiver σ} {as bs : List Act} :
    Settled r (as ++ bs) ↔ Settled r as ∧ Settled (r.after as) bs := by
  induction as generalizing r with
  | nil => simp [Settled]
  | cons a as ih => simp [Settled, ih, and_assoc]

structure Outside (ε : Type) where
  calls : List (Option Endpoint)
  script : List Status
  fetch : ε

variable {ε : Type} {enqueue : Fetch.Strategy → ε → Except Failure Bool × ε}
  {pull : ε → Except Failure Unit × ε}

def scripted (enqueue : Fetch.Strategy → ε → Except Failure Bool × ε)
    (pull : ε → Except Failure Unit × ε) : Respond σ (Outside ε)
  | .register x, s, out =>
    some (.registered (out.script.headD .registered), s,
      { out with calls := out.calls ++ [x], script := out.script.tail })
  | .enqueue strategy, s, out =>
    let (answer, fetch) := enqueue strategy out.fetch
    some (.enqueued answer, s, { out with fetch })
  | .legacyPull, s, out =>
    let (answer, fetch) := pull out.fetch
    some (.pulled answer, s, { out with fetch })

omit [KeyValueStore σ] in
theorem attends_scripted : Attends (scripted enqueue pull : Respond σ (Outside ε)) := by
  intro task s out
  cases task <;> exact ⟨_, _, rfl, rfl⟩

def settleAll {ε : Type} (respond : Respond σ ε) (r : Receiver σ) (env : ε) (asked : List Act) :
    Receiver σ × ε :=
  asked.foldl (fun p a => (act a p.1).settle respond p.2) (r, env)

variable [Faultless σ]

def table (r : Receiver σ) (calls : List (Option Endpoint)) (script : List Status) : Table :=
  ⟨r.endpoint, r.status, r.history, calls, script⟩

/-- What the table shows once what is under way has been worked off. -/
def prospect (r : Receiver σ) (calls : List (Option Endpoint)) (script : List Status) : Table :=
  match r.inFlight with
  | some (.registering _ alerting) => (r.table calls script).conclude alerting
  | some _ => r.table calls script
  | none => r.next?.elim (r.table calls script) (r.table calls script).work

section

variable (r : Receiver σ) (calls : List (Option Endpoint)) (script : List Status)

@[simp] theorem table_endpoint : (r.table calls script).endpoint = r.endpoint := rfl

@[simp] theorem table_status : (r.table calls script).status = r.status := rfl

@[simp] theorem table_publish : r.publish.table calls script = (r.table calls script).publish := by
  rw [publish_eq]
  rfl

@[simp] theorem table_alert (kind : AlertKind) :
    (r.alert kind).table calls script = (r.table calls script).alert kind := rfl

@[simp] theorem table_withEndpoint (e : Endpoint) :
    (r.withEndpoint e).table calls script =
      { r.table calls script with endpoint := some e } := by
  simp [table]

@[simp] theorem table_withoutEndpoint :
    r.withoutEndpoint.table calls script = { r.table calls script with endpoint := none } := by
  simp [table]

@[simp] theorem table_withStatus (status : Status) :
    (r.withStatus status).table calls script = { r.table calls script with status } := by
  simp [table]

@[simp] theorem table_stamped : r.stamped.table calls script = r.table calls script := by
  simp [table]

@[simp] theorem table_submit (job : Job) :
    (r.submit job).table calls script = r.table calls script := rfl

@[simp] theorem table_done : r.done.table calls script = r.table calls script := rfl

@[simp] theorem table_await (task : InFlight) :
    (r.await task).table calls script = r.table calls script := rfl

theorem table_tellFailure (alerting : Bool) (outcome : Status) :
    (r.tellFailure alerting outcome).table calls script =
      if alerting && outcome != .registered then
        (r.table calls script).alert .endpointChangedError
      else r.table calls script := by
  unfold tellFailure
  split <;> rfl

theorem conclude_table (alerting : Bool) (outcome : Status) :
    (r.table calls (outcome :: script)).conclude alerting =
      if alerting && outcome != .registered then
        ({ r.table calls script with status := outcome }.publish).alert .endpointChangedError
      else { r.table calls script with status := outcome }.publish := rfl

end

structure Lone (r : Receiver σ) : Prop where
  steady : Steady r
  pending_or_current : r.worker.pending = none ∨ r.worker.current? = none
  status_of_next : ∀ alerting, r.inFlight = none → r.next? = some (.register alerting) →
    r.status ≠ .airGapped
  status_of_inFlight : ∀ x alerting, r.inFlight = some (.registering x alerting) →
    r.status ≠ .airGapped

variable {r r' : Receiver σ} {a : Act}

section

variable (calls : List (Option Endpoint)) (script : List Status)

theorem prospect_congr (ht : r'.table calls script = r.table calls script)
    (hf : r'.inFlight = r.inFlight) (hn : r'.next? = r.next?) :
    r'.prospect calls script = r.prospect calls script := by
  simp [prospect, ht, hf, hn]

theorem prospect_of_rest (hf : r.inFlight = none) (hn : r.next? = none) :
    r.prospect calls script = r.table calls script := by
  simp [prospect, hf, hn]

theorem prospect_of_next? {job : Job} (hf : r.inFlight = none) (hn : r.next? = some job) :
    r.prospect calls script = (r.table calls script).work job := by
  simp [prospect, hf, hn]

theorem prospect_of_registering {x : Option Endpoint} {alerting : Bool}
    (hf : r.inFlight = some (.registering x alerting)) :
    r.prospect calls script = (r.table calls script).conclude alerting := by
  simp [prospect, hf]

end

theorem Lone.next?_done (hl : Lone r) (hc : r.worker.current?.isSome) (s : Receiver σ)
    (hs : s.worker = r.worker) : s.done.next? = none := by
  have hp := hl.pending_or_current.resolve_right (Option.isSome_iff_ne_none.1 hc)
  rw [next?_of_rest (by simp)]
  simp [hs, hp]

section

omit [Faultless σ]

theorem calling_of_isSome (hf : r.inFlight.isSome) : calling a r = [] := by
  obtain ⟨task, hf⟩ := Option.isSome_iff_exists.1 hf
  simp [calling, call?, hf]

theorem calling_of_eq_none (hf : (act a r).inFlight = none) : calling a r = [] := by
  cases hr : r.inFlight <;> simp [calling, call?, hr, hf]

theorem calling_of_eq (hf : (act a r).inFlight = r.inFlight) : calling a r = [] := by
  cases hr : r.inFlight <;> simp [calling, call?, hr, hf]

end

section

omit [KeyValueStore σ] [Faultless σ]

theorem outcome_of_uncalled {reply : Reply} (hf : r.inFlight = none) :
    outcome (.answer reply) r = [] := by
  cases reply <;> simp [outcome, hf]

theorem outcome_of_misfit {task : InFlight} {reply : Reply} (hf : r.inFlight = some task)
    (h : task.fits reply = false) : outcome (.answer reply) r = [] := by
  cases task <;> cases reply <;> simp_all [outcome, InFlight.fits]

end

theorem prospect_step (hl : Lone r) (ha : a.isRequest = false) (calls : List (Option Endpoint))
    (script : List Status) :
    (act a r).prospect (calls ++ calling a r) script = r.prospect calls (outcome a r ++ script) := by
  have h := step_act r a
  have hdone : ∀ s : Receiver σ, s.worker = r.worker → r.worker.current?.isSome →
      s.done.prospect calls script = s.table calls script :=
    fun s hs hc => prospect_of_rest calls script (inFlight_done s) (hl.next?_done hc s hs)
  generalize hact : act a r = r' at h
  cases h with
  | moved h =>
    rw [calling_of_eq (by rw [hact]), List.append_nil]
    exact prospect_congr calls script rfl rfl (next?_moved hl.steady h)
  | waited h hf =>
    rw [calling_of_isSome (by simp [hf]), List.append_nil]
    rfl
  | registering h hf =>
    have hn : calling .work r = [r.endpoint] := by simp [calling, call?, hact, hf, InFlight.call]
    rw [hn, prospect_of_registering _ _ (inFlight_await r _),
      prospect_of_next? _ _ hf (next?_of_current h hf)]
    rfl
  | retrying h hf hs he =>
    have hn : calling .work r = [r.endpoint] := by simp [calling, call?, hact, hf, InFlight.call]
    rw [hn, prospect_of_registering _ _ (inFlight_await r _),
      prospect_of_next? _ _ hf (next?_of_current h hf)]
    have he : r.endpoint ≠ none := Option.isSome_iff_ne_none.1 he
    simp only [Table.work, Table.retry, table_status, table_endpoint, if_neg hs,
      Option.isNone_iff_eq_none, if_neg he]
    rfl
  | gaveUp h hf hs =>
    rw [calling_of_eq_none (by simp [hact]), List.append_nil, hdone r rfl (by simp [h]),
      prospect_of_next? _ _ hf (next?_of_current h hf)]
    simp [Table.work, Table.retry, outcome, hs]
  | missed h hf hs he =>
    rw [calling_of_eq_none (by simp [hact]), List.append_nil, hdone _ (by simp) (by simp [h]),
      prospect_of_next? _ _ hf (next?_of_current h hf)]
    simp [Table.work, Table.retry, outcome, hs, he]
  | fetching h hf =>
    have hn : calling .work r = [] := by simp [calling, call?, hact, hf, InFlight.call]
    rw [hn, List.append_nil, prospect_of_next? _ _ hf (next?_of_current h hf)]
    simp [prospect, Table.work, outcome]
  | uncalled hf =>
    rw [calling_of_eq (by rw [hact]), List.append_nil, outcome_of_uncalled hf, List.nil_append]
  | misfit hf h =>
    rw [calling_of_isSome (by simp [hf]), List.append_nil, outcome_of_misfit hf h, List.nil_append]
  | recorded hf hs =>
    have hc := hl.steady.current_of_inFlight (by simp [hf])
    rw [calling_of_isSome (by simp [hf]), List.append_nil, hdone _ (by simp) hc,
      prospect_of_registering _ _ hf]
    simp [table_tellFailure, conclude_table, outcome, hf]
  | discarded hf hs => exact absurd hs (hl.status_of_inFlight _ _ hf)
  | enqueued hf | pulled hf =>
    have hc := hl.steady.current_of_inFlight (by simp [hf])
    rw [calling_of_isSome (by simp [hf]), List.append_nil, hdone _ (by simp) hc]
    simp [prospect, outcome, hf]
  | refused hf h =>
    rw [calling_of_isSome (by simp [hf]), List.append_nil]
    simp [prospect, outcome, hf]
  | clock | delivery =>
    rw [calling_of_eq (by rw [hact]), List.append_nil]
    exact prospect_congr calls script rfl rfl rfl
  | _ => simp [Act.isRequest] at ha

theorem Lone.of_idle (hr : Steady r) (hi : r.worker.idle) : Lone r := by
  obtain ⟨hp, hc, hf⟩ := hr.rest_of_idle hi
  refine ⟨hr, .inl hp, ?_, ?_⟩
  · intro alerting _ hn
    simp [next?_of_rest hc, hp] at hn
  · intro x alerting hx
    simp [hf] at hx

theorem Lone.done {s : Receiver σ} (hl : Lone r) (hr : Steady s.done)
    (hc : r.worker.current?.isSome) (hs : s.worker = r.worker) : Lone s.done := by
  have hn := hl.next?_done hc s hs
  exact ⟨hr, .inr (by simp), fun _ _ hn' => by simp [hn] at hn', fun _ _ hx => by simp at hx⟩

theorem Lone.step (hl : Lone r) (ha : a.isRequest = false) : Lone (act a r) := by
  have h := step_act r a
  have hr := hl.steady.act a
  have hone := hl.pending_or_current
  generalize hact : act a r = r' at h hr
  cases h with
  | moved h =>
    refine ⟨hr, ?_, ?_, hl.status_of_inFlight⟩
    · obtain ⟨hc, hp⟩ | ⟨job, -, -, hw⟩ := Worker.advance_cases hl.steady.closed_eq
      · exact .inr (hc.trans h)
      · simp [hw]
    · intro alerting hf hn
      rw [next?_moved hl.steady h] at hn
      exact hl.status_of_next alerting hf hn
  | registering h hf =>
    have hs := hl.status_of_next _ hf (next?_of_current h hf)
    exact ⟨hr, hone, fun _ hf' _ => by simp at hf', fun _ _ _ => hs⟩
  | retrying h hf hs he => exact ⟨hr, hone, fun _ hf' _ => by simp at hf', fun _ _ _ => hs⟩
  | gaveUp h hf hs | missed h hf hs he => exact hl.done hr (by simp [h]) (by simp)
  | fetching h hf =>
    exact ⟨hr, hone, fun _ hf' _ => by simp at hf', fun _ _ hx => by simp at hx⟩
  | recorded hf | discarded hf | enqueued hf | pulled hf =>
    exact hl.done hr (hl.steady.current_of_inFlight (by simp [hf])) (by simp)
  | refused hf h =>
    exact ⟨hr, hone, fun _ hf' _ => by simp at hf', fun _ _ hx => by simp at hx⟩
  | waited | uncalled | misfit => exact hl
  | clock | delivery => exact ⟨hr, hone, hl.status_of_next, hl.status_of_inFlight⟩
  | _ => simp [Act.isRequest] at ha

theorem lone_request (hr : Steady r) (hi : r.worker.idle) (ha : a.isRequest) : Lone (act a r) := by
  obtain ⟨hp, hc, hf⟩ := hr.rest_of_idle hi
  have hasks := asks_request ha r
  have hc' : (act a r).worker.current? = none := by
    rw [hasks.worker_eq]
    cases a.job? r <;> simp [hc]
  have hf' : (act a r).inFlight = none := hasks.inFlight_eq.trans hf
  refine ⟨hr.act a, .inr hc', ?_, fun _ _ hx => by simp [hf'] at hx⟩
  intro alerting _ hn
  rw [next?_of_rest hc'] at hn
  have h := step_act r a
  generalize hact : act a r = r' at h hn
  cases h with
  | queuedAlerting h hs => simp [hs]
  | queued h hs => obtain hs | hs := hs <;> simp [hs]
  | accepted h => simp [Worker.submit_pending, hr.closed_eq] at hn
  | retry => simp [Worker.submit_pending, hr.closed_eq] at hn
  | left h he => simp
  | _ => simp_all [Act.isRequest]

theorem prospect_of_idle (hr : Steady r) (hi : r.worker.idle) (calls : List (Option Endpoint))
    (script : List Status) : r.prospect calls script = r.table calls script := by
  obtain ⟨hp, hc, hf⟩ := hr.rest_of_idle hi
  exact prospect_of_rest calls script hf (by rw [next?_of_rest hc, hp])

theorem prospect_request (hr : Steady r) (hi : r.worker.idle) (ha : a.isRequest)
    (calls : List (Option Endpoint)) (script : List Status) :
    (act a r).prospect calls script = (r.prospect calls script).step a := by
  obtain ⟨hp, hc, hf⟩ := hr.rest_of_idle hi
  have hrest : ∀ s : Receiver σ, s.worker = r.worker → s.inFlight = r.inFlight →
      s.prospect calls script = s.table calls script := by
    intro s hw hfs
    refine prospect_of_rest calls script (hfs.trans hf) ?_
    rw [next?_of_rest (by simp [hw, hc]), hw, hp]
  have hsubmit : ∀ (s : Receiver σ) (job : Job), s.worker = r.worker → s.inFlight = r.inFlight →
      (s.submit job).prospect calls script = (s.table calls script).work job := by
    intro s job hw hfs
    refine prospect_of_next? calls script (hfs.trans hf) ?_
    rw [next?_of_rest (by simp [hw, hc])]
    simp [hw, Worker.submit_pending, hr.closed_eq]
  rw [hrest r rfl rfl]
  have h := step_act r a
  generalize hact : act a r = r' at h
  cases h with
  | sameEndpoint h => rw [hrest r rfl rfl]; simp [Table.step, Table.newEndpoint, h]
  | toldAirGapped h hs =>
    rw [hrest _ (by simp) (by simp)]
    simp [Table.step, Table.newEndpoint, h, hs]
  | told h hs =>
    rw [hrest _ (by simp) (by simp)]
    simp [Table.step, Table.newEndpoint, h, hs]
  | queuedAlerting h hs =>
    rw [hsubmit _ _ (by simp) (by simp)]
    simp [Table.step, Table.newEndpoint, Table.work, h, hs]
  | queued h hs =>
    rw [hsubmit _ _ (by simp) (by simp)]
    obtain hs | hs := hs <;> simp [Table.step, Table.newEndpoint, Table.work, h, hs]
  | unregistered =>
    rw [hrest _ (by simp) (by simp)]
    simp [Table.step]
  | registrationFailed =>
    rw [hrest _ (by simp) (by simp)]
    simp [Table.step]
  | accepted h =>
    rw [hsubmit _ _ (by simp) (by simp)]
    simp [Table.step, Table.work]
  | ignored h => exact hrest r rfl rfl
  | retry =>
    rw [hsubmit _ _ (by simp) (by simp)]
    simp [Table.step, Table.work]
  | sameMode h =>
    rw [hrest r rfl rfl]
    simp [Table.step, Table.airGapped, h]
  | entered h =>
    rw [hrest _ (by simp) (by simp)]
    simp [Table.step, Table.airGapped, h]
  | left h he =>
    rw [hsubmit _ _ (by simp) (by simp)]
    simp [Table.step, Table.airGapped, Table.work, h, he]
  | leftBare h he =>
    rw [hrest _ (by simp) (by simp)]
    simp [Table.step, Table.airGapped, h, he]
  | _ => simp [Act.isRequest] at ha

variable {r₀ : Receiver σ} {acts : List Act}

theorem lone_after (hr : Steady r₀) (hi : r₀.worker.idle) (hs : Settled r₀ acts) :
    Lone (r₀.after acts) := by
  induction acts using List.reverseRecOn with
  | nil => exact .of_idle hr hi
  | append_singleton acts a ih =>
    obtain ⟨hs', hidle, -⟩ := settled_append_iff.1 hs
    have hl := ih hs'
    rw [after_append]
    cases ha : a.isRequest with
    | true => exact lone_request hl.steady (hidle ha) ha
    | false => exact hl.step ha

theorem prospect_after (hr : Steady r₀) (hi : r₀.worker.idle) (hs : Settled r₀ acts)
    (rest : List Status) :
    (r₀.after acts).prospect (r₀.calls acts) rest =
      (requests acts).foldl Table.step (r₀.table [] (r₀.outcomes acts ++ rest)) := by
  induction acts using List.reverseRecOn generalizing rest with
  | nil => exact prospect_of_idle hr hi _ _
  | append_singleton acts a ih =>
    obtain ⟨hs', hidle, -⟩ := settled_append_iff.1 hs
    have hl := lone_after hr hi hs'
    have ho : r₀.outcomes (acts ++ [a]) = r₀.outcomes acts ++ outcome a (r₀.after acts) := by
      simp [outcomes, after]
    rw [after_append, calls_append, calls_singleton, ho]
    cases ha : a.isRequest with
    | true =>
      have hq : requests (acts ++ [a]) = requests acts ++ [a] := by simp [requests, ha]
      have hn : calling a (r₀.after acts) = [] := calling_of_eq (asks_request ha _).inFlight_eq
      have hout : outcome a (r₀.after acts) = [] := by
        cases a <;> first | rfl | simp [Act.isRequest] at ha
      rw [hn, hout, List.append_nil, List.append_nil, hq, List.foldl_append, ← ih hs']
      exact prospect_request hl.steady (hidle ha) ha _ _
    | false =>
      have hq : requests (acts ++ [a]) = requests acts := by simp [requests, ha]
      rw [hq, List.append_assoc, ← ih hs']
      exact prospect_step hl ha _ _

def underWay (r : Receiver σ) : List (Option Endpoint) :=
  match r.inFlight with
  | some (.registering x _) => [x]
  | _ => []

omit [KeyValueStore σ] [Faultless σ] in
theorem underWay_of_idle (hr : Steady r) (hi : r.worker.idle) : r.underWay = [] := by
  obtain ⟨-, -, hf⟩ := hr.rest_of_idle hi
  simp [underWay, hf]

omit [Faultless σ] in
theorem calling_work (hf : r.inFlight = none) : calling .work r = (act .work r).underWay := by
  cases hf' : (act .work r).inFlight with
  | none => simp [calling, call?, underWay, hf, hf']
  | some task => cases task <;> simp [calling, call?, underWay, hf, hf', InFlight.call]

theorem underWay_answer {task : InFlight} {reply : Reply} (hf : r.inFlight = some task)
    (h : task.fits reply) : (act (.answer reply) r).underWay = [] := by
  have hstep := step_act r (.answer reply)
  generalize act (.answer reply) r = r' at hstep
  cases hstep with
  | uncalled hf' => simp [hf] at hf'
  | misfit hf' h' =>
    obtain rfl : task = _ := Option.some.inj (hf.symm.trans hf')
    simp [h] at h'
  | _ => simp [underWay]

theorem prospect_headD {x : Option Endpoint} {alerting : Bool}
    (hf : r.inFlight = some (.registering x alerting)) (calls : List (Option Endpoint))
    (script : List Status) :
    r.prospect calls (script.headD .registered :: script.tail) = r.prospect calls script := by
  rw [prospect_of_registering _ _ hf, prospect_of_registering _ _ hf]
  cases script <;> rfl

theorem prospect_unasked {out out' : Outside ε} (hl : Lone r)
    (ht : Unasked (scripted enqueue pull) r out a out') :
    (act a r).prospect (out'.calls ++ (act a r).underWay) out'.script =
      r.prospect (out.calls ++ r.underWay) out.script := by
  have hstep := fun calls script => prospect_step hl ht.isRequest_eq calls script
  cases ht with
  | work hf =>
    rw [← calling_work hf, hstep]
    simp [underWay, hf, outcome]
  | @answer task reply _ hf h hr =>
    have hn := underWay_answer hf h
    have hc : calling (.answer reply) r = [] := calling_of_isSome (by simp [hf])
    simp only [hc, List.append_nil] at hstep
    rw [hn, List.append_nil, hstep]
    cases task with
    | registering x alerting =>
      obtain ⟨rfl, -, rfl⟩ : _ ∧ r.store = r.store ∧ _ := by simpa [scripted, InFlight.call] using hr
      simpa [outcome, underWay, hf] using prospect_headD hf (out.calls ++ [x]) out.script
    | enqueuing strategy =>
      obtain ⟨rfl, -, rfl⟩ : _ ∧ r.store = r.store ∧ _ := by simpa [scripted, InFlight.call] using hr
      simp [outcome, underWay, hf]
    | pulling strategy =>
      obtain ⟨rfl, -, rfl⟩ : _ ∧ r.store = r.store ∧ _ := by simpa [scripted, InFlight.call] using hr
      simp [outcome, underWay, hf]

section

variable (enqueue pull) (out : Outside ε)

theorem settle_request (hr : Steady r) (hi : r.worker.idle) (ha : a.isRequest) :
    let p := (act a r).settle (scripted enqueue pull) out
    (Steady p.1 ∧ p.1.worker.idle) ∧
      p.1.table p.2.calls p.2.script = (r.table out.calls out.script).step a := by
  have hquiet : (act a r).underWay = [] := by
    have := underWay_of_idle hr hi
    simpa [underWay, (asks_request ha r).inFlight_eq] using this
  have hstart : (act a r).prospect (out.calls ++ (act a r).underWay) out.script =
      (r.table out.calls out.script).step a := by
    rw [hquiet, List.append_nil, prospect_request hr hi ha, prospect_of_idle hr hi]
  let Due (s : Receiver σ) (o : Outside ε) : Prop :=
    Lone s ∧ s.prospect (o.calls ++ s.underWay) o.script = (r.table out.calls out.script).step a
  have hturn : ∀ {s o b o'}, Steady s → Unasked (scripted enqueue pull) s o b o' → Due s o →
      Due (act b s) o' := by
    intro s o b o' _ ht h
    exact ⟨h.1.step ht.isRequest_eq, (prospect_unasked h.1 ht).trans h.2⟩
  have hdue : Due (act a r) out := ⟨lone_request hr hi ha, hstart⟩
  obtain ⟨⟨-, h⟩, hr', hi'⟩ := settle_keeps attends_scripted hturn (hr.act a) hdue
  refine ⟨⟨hr', hi'⟩, ?_⟩
  rw [underWay_of_idle hr' hi', List.append_nil, prospect_of_idle hr' hi'] at h
  exact h

theorem settleAll_follows {asked : List Act} (ha : ∀ a ∈ asked, a.isRequest)
    (hr : Steady r) (hi : r.worker.idle) :
    let p := r.settleAll (scripted enqueue pull) out asked
    p.1.worker.idle ∧
      p.1.table p.2.calls p.2.script =
        asked.foldl Table.step (r.table out.calls out.script) := by
  induction asked generalizing r out with
  | nil => exact ⟨hi, rfl⟩
  | cons a asked ih =>
    obtain ⟨ha, hall⟩ := List.forall_mem_cons.1 ha
    obtain ⟨⟨hr', hi'⟩, ht⟩ := settle_request enqueue pull out hr hi ha
    rw [List.foldl_cons, ← ht]
    exact ih _ hall hr' hi'

end

/-- A run in which each request finds the worker idle goes by the table: whenever the worker is idle, what
is stored, what observers and the user were told, and what the relay was called with are what the table
says for the requests and the answers of the relay. So do requests that are worked off one after the
other, with any script for the relay and any fetch service. -/
theorem settled_follows_table (name : String) (s : σ) (clock : UInt64) (policy : Fetch.Policy)
    (delivery : Fetch.Delivery) :
    let r₀ := new name s clock policy delivery
    (∀ acts, Settled r₀ acts → (r₀.after acts).worker.idle → ∀ rest,
      (requests acts).foldl Table.step
          ⟨storedEndpoint s, storedStatus s, [], [], r₀.outcomes acts ++ rest⟩ =
        (r₀.after acts).table (r₀.calls acts) rest) ∧
      ∀ (ε : Type) (enqueue : Fetch.Strategy → ε → Except Failure Bool × ε)
        (pull : ε → Except Failure Unit × ε) (fetch : ε) (script : List Status) (asked : List Act),
        (∀ a ∈ asked, a.isRequest) →
        let p := r₀.settleAll (scripted enqueue pull) ⟨[], script, fetch⟩ asked
        p.1.worker.idle ∧
          asked.foldl Table.step ⟨storedEndpoint s, storedStatus s, [], [], script⟩ =
            p.1.table p.2.calls p.2.script := by
  intro r₀
  have hr : Steady r₀ := steady_new name s clock policy delivery
  constructor
  · intro acts hs hi rest
    have hl := lone_after hr rfl hs
    have h := prospect_after hr rfl hs rest
    rw [prospect_of_idle hl.steady hi] at h
    exact h.symm
  · intro ε enqueue pull fetch script asked ha
    obtain ⟨hi, h⟩ := settleAll_follows enqueue pull ⟨[], script, fetch⟩ ha hr rfl
    exact ⟨hi, h.symm⟩

/-- A registered receiver gets another endpoint and the relay fails; the user then shuts the relay out and
lets it in again, and the relay registers the endpoint. -/
theorem table_of_second_endpoint :
    let s := putEndpoint ⟨"A"⟩ (putStatus .registered Store.Entries.empty)
    let r := new "registration" s 0 default (.fixed true)
    let another : Act := .handle (.newEndpoint ⟨"B"⟩ "default")
    let work : List Act := [.work, .work, .work]
    let acts := another :: work ++ .answer (.registered .internalError) :: .work :: .airGapped true ::
      .airGapped false :: .work :: work ++ [.answer (.registered .registered), .work]
    let script : List Status := [.internalError, .registered]
    let t : Table := ⟨some ⟨"B"⟩, .registered,
      [.published ⟨some ⟨"B"⟩, .internalError⟩, .alerted .endpointChangedError,
        .published ⟨some ⟨"B"⟩, .airGapped⟩, .published ⟨some ⟨"B"⟩, .unconfigured⟩,
        .published ⟨some ⟨"B"⟩, .registered⟩], [some ⟨"B"⟩, some ⟨"B"⟩], []⟩
    Settled r acts ∧ (r.after acts).worker.idle ∧
      [another, .airGapped true, .airGapped false].foldl Table.step
        ⟨some ⟨"A"⟩, .registered, [], [], script⟩ = t ∧
      (r.after acts).table (r.calls acts) [] = t ∧
      let p := r.settleAll
        (scripted (fun _ (n : Nat) => (.ok true, n + 1)) fun n => (.ok (), n)) ⟨[], script, 0⟩
        [another, .airGapped true, .airGapped false]
      p.1.worker.idle ∧ p.1.table p.2.calls p.2.script = t := by
  intro s r another work acts script t
  have hs : Settled r acts := by decide +kernel
  have hi : (r.after acts).worker.idle := by decide +kernel
  have hq : requests acts = [another, .airGapped true, .airGapped false] := rfl
  have ho : r.outcomes acts = script := by decide +kernel
  have hx : storedEndpoint s = some ⟨"A"⟩ := by decide +kernel
  have hst : storedStatus s = .registered := by decide +kernel
  have ht : [another, .airGapped true, .airGapped false].foldl Table.step
      ⟨some ⟨"A"⟩, .registered, [], [], script⟩ = t := by decide +kernel
  dsimp only [r] at hs hi ho ⊢
  obtain ⟨hrun, hall⟩ := settled_follows_table "registration" s 0 default (.fixed true)
  have hrun := hrun acts hs hi []
  have hall := hall Nat (fun _ n => (.ok true, n + 1)) (fun n => (.ok (), n)) 0 script
    [another, .airGapped true, .airGapped false] (by decide)
  rw [hq, hx, hst] at hrun
  rw [hx, hst, ht] at hall
  rw [ho, List.append_nil, ht] at hrun
  exact ⟨hs, hi, ht, hrun.symm, hall.1, hall.2.symm⟩

end PushKeeper.Receiver
