import PushKeeper.Proofs.Receiver.Settling
import PushKeeper.Proofs.Receiver.Silence

namespace PushKeeper.Worker

variable {τ : Type} {w : Worker τ}

theorem after_replicate_submit (task : τ) (hc : w.closed = false) (hp : w.pending = none) (n : Nat) :
    (w.after (List.replicate (n + 1) (.submit task))).pending = some task ∧
      (w.after (List.replicate (n + 1) (.submit task))).dropped = w.dropped + UInt64.ofNat n := by
  induction n with
  | zero =>
    refine ⟨submit_pending task hc, ?_⟩
    show (w.submit task).dropped = _
    rw [submit_dropped w task hc]
    simp [discard, countDropped, hp]
  | succ n ih =>
    obtain ⟨hpending, hdropped⟩ := ih
    have hclosed : (w.after (List.replicate (n + 1) (.submit task))).closed = false :=
      closed_after hc (by simp)
    rw [List.replicate_succ', after_concat]
    refine ⟨submit_pending task hclosed, ?_⟩
    show (Worker.submit _ task).dropped = _
    rw [submit_dropped _ task hclosed]
    simp [discard, countDropped, hpending, hdropped, UInt64.add_assoc]

end PushKeeper.Worker

namespace PushKeeper.Receiver

open Registration (Endpoint Status)
open Store (Faultless KeyValueStore)

def arrivals (es : List (Endpoint × String)) : List Act :=
  es.map fun (e, i) => .handle (.newEndpoint e i)

def changes : Option Endpoint → List Endpoint → Nat
  | _, [] => 0
  | x, e :: es => (if x = some e then 0 else 1) + changes (some e) es

def Act.proceeds : Act → Bool
  | .answer (.registered outcome) => outcome != .airGapped
  | a => !a.isRequest

/-- In this status a new endpoint is one to call the relay for. -/
def Eager (status : Status) : Prop :=
  status = .registered ∨ status = .internalError ∨ status = .missingEndpoint

variable {σ : Type} [KeyValueStore σ] {r r' : Receiver σ} {x : Option Endpoint} {a : Act}
  {acts : List Act}

theorem followUp_eager {before : Status} (h : Eager before) (r : Receiver σ) :
    followUp before r = r.submit (.register (before == .registered)) := by
  obtain rfl | rfl | rfl := h <;> rfl

theorem calling_of_not_begun (h : r.inFlight.isSome ∨ (act a r).inFlight = none) :
    calling a r = [] := by
  cases hf : r.inFlight with
  | some task => simp [calling, call?, hf]
  | none => simp_all [calling, call?]

/-- The relay is never answered for with word that it is kept out. -/
def Admits {ε : Type} (respond : Respond σ ε) : Prop :=
  ∀ call s env s' env', respond call s env ≠ some (.registered .airGapped, s', env')

def Proceeded {ε : Type} (r r' : Receiver σ) (_env : ε) : Prop :=
  ∃ acts, (∀ a ∈ acts, a.proceeds) ∧ r' = r.after acts

omit [KeyValueStore σ] in
theorem Unasked.proceeds {ε : Type} {respond : Respond σ ε} {env env' : ε} (hadmits : Admits respond)
    (h : Unasked respond r env a env') : a.proceeds := by
  cases h with
  | work hf => rfl
  | @answer task reply env' hf hfit hr =>
    cases reply with
    | registered outcome =>
      have ho : outcome ≠ .airGapped := by
        rintro rfl
        exact hadmits _ _ _ _ _ hr
      simpa [Act.proceeds] using ho
    | enqueued answer => rfl
    | pulled answer => rfl

theorem Proceeded.step {ε : Type} {respond : Respond σ ε} {env env' : ε} (hadmits : Admits respond)
    (hu : Unasked respond r' env a env') (h : Proceeded r r' env) :
    Proceeded r (act a r') env' := by
  obtain ⟨acts, hacts, rfl⟩ := h
  refine ⟨acts ++ [a], ?_, by simp⟩
  simpa [or_imp, forall_and] using ⟨hacts, hu.proceeds hadmits⟩

theorem exists_settle_eq {ε : Type} {respond : Respond σ ε} (h : Attends respond)
    (hadmits : Admits respond) (hr : Steady r) (env : ε) :
    ∃ acts, (∀ a ∈ acts, a.proceeds) ∧ (r.settle respond env).1 = r.after acts ∧
      (r.after acts).worker.idle := by
  have hstart : Proceeded r r env := ⟨[], by simp, rfl⟩
  obtain ⟨⟨acts, hacts, heq⟩, -, hi⟩ :=
    settle_keeps h (fun _ hu hp => Proceeded.step hadmits hu hp) hr hstart
  exact ⟨acts, hacts, heq, heq ▸ hi⟩

variable [Faultless σ]

structure Arrived (r r' : Receiver σ) (es : List Endpoint) : Prop where
  endpoint_eq : r'.endpoint = es.getLast?.or r.endpoint
  status_eq : r'.status = r.status
  inFlight_eq : r'.inFlight = r.inFlight
  worker_eq : r'.worker = r.worker.after
    (List.replicate (changes r.endpoint es) (.submit (.register (r.status == .registered))))

theorem arrived (hs : Eager r.status) (es : List (Endpoint × String)) :
    Arrived r (r.after (arrivals es)) (es.map Prod.fst) := by
  induction es generalizing r with
  | nil => exact ⟨rfl, rfl, rfl, rfl⟩
  | cons p es ih =>
    obtain ⟨e, i⟩ := p
    have hlast (x : Option Endpoint) : ((e, i) :: es |>.map Prod.fst).getLast?.or x =
        (es.map Prod.fst).getLast?.or (some e) := by
      cases h : (es.map Prod.fst).getLast? <;> simp [List.getLast?_cons, h]
    show Arrived r ((r.handle (.newEndpoint e i)).after (arrivals es)) _
    simp only [handle, on_newEndpoint]
    by_cases he : r.endpoint = some e
    · obtain ⟨h1, h2, h3, h4⟩ := ih hs
      rw [if_pos he]
      refine ⟨?_, h2, h3, ?_⟩
      · rw [hlast, h1, he]
      · rw [h4]
        simp [changes, he]
    · rw [if_neg he, followUp_eager hs]
      obtain ⟨h1, h2, h3, h4⟩ :=
        ih (r := (r.withEndpoint e).submit (.register (r.status == .registered))) (by simpa using hs)
      refine ⟨?_, by simpa using h2, by simpa using h3, ?_⟩
      · rw [hlast, h1]
        simp
      · rw [h4]
        simp [changes, he, Nat.add_comm 1, List.replicate_succ]
        rfl

inductive Stage (x y : Option Endpoint) (r : Receiver σ) :
    List (Option Endpoint) → List Recording → Prop
  | called {alerting again} (hf : r.inFlight = some (.registering x alerting))
      (hp : r.worker.pending = some (.register again)) : Stage x y r [] []
  | waiting {again} (hw : r.worker.current? = none)
      (hp : r.worker.pending = some (.register again)) : Stage x y r [] [⟨x, r.status⟩]
  | taken {again} (hw : r.worker.current? = some (.register again)) (hf : r.inFlight = none)
      (hp : r.worker.pending = none) : Stage x y r [] [⟨x, r.status⟩]
  | recalled {alerting outcome} (hf : r.inFlight = some (.registering y alerting))
      (hp : r.worker.pending = none) : Stage x y r [y] [⟨x, outcome⟩]
  | rested {outcome} (hw : r.worker.current? = none) (hp : r.worker.pending = none) :
      Stage x y r [y] [⟨x, outcome⟩, ⟨y, r.status⟩]

structure Underway (x y : Option Endpoint) (dropped : UInt64) (r : Receiver σ)
    (calls : List (Option Endpoint)) (recordings : List Recording) : Prop where
  endpoint_eq : r.endpoint = y
  status_ne : r.status ≠ .airGapped
  dropped_eq : r.worker.dropped = dropped
  stage : Stage x y r calls recordings

structure Kept (r r' : Receiver σ) : Prop where
  endpoint_eq : r'.endpoint = r.endpoint
  status_eq : r'.status = r.status
  worker_eq : r'.worker = r.worker
  inFlight_eq : r'.inFlight = r.inFlight

theorem kept_of_not_work (hf : r.inFlight = none) (hw : a ≠ .work) (ha : a.proceeds) :
    Kept r (act a r) ∧ calling a r = [] ∧ recording a r = [] := by
  cases a with
  | work => exact absurd rfl hw
  | answer reply =>
    have hact : act (.answer reply) r = r := by simp [act, answer, hf]
    rw [hact]
    refine ⟨⟨rfl, rfl, rfl, rfl⟩, calling_of_not_begun (.inr (by rw [hact, hf])), ?_⟩
    cases reply <;> simp [recording, hf]
  | clock time => exact ⟨⟨rfl, rfl, rfl, rfl⟩, calling_of_not_begun (.inr hf), rfl⟩
  | delivery d => exact ⟨⟨rfl, rfl, rfl, rfl⟩, calling_of_not_begun (.inr hf), rfl⟩
  | _ => simp [Act.proceeds, Act.isRequest] at ha

theorem kept_or_recorded {alerting : Bool} (hr : Steady r)
    (hf : r.inFlight = some (.registering x alerting)) (hs : r.status ≠ .airGapped)
    (ha : a.proceeds) :
    (Kept r (act a r) ∧ recording a r = []) ∨ ∃ outcome, outcome ≠ .airGapped ∧
      act a r = ((r.withStatus outcome).publish.tellFailure alerting outcome).done ∧
      recording a r = [⟨x, outcome⟩] := by
  have hw := hr.current_of_inFlight (by simp [hf])
  have h := step_act r a
  generalize hact : act a r = r' at h
  cases h with
  | waited | clock | delivery => exact .inl ⟨⟨rfl, rfl, rfl, rfl⟩, rfl⟩
  | @misfit task reply hf' hfit =>
    refine .inl ⟨⟨rfl, rfl, rfl, rfl⟩, ?_⟩
    cases reply <;> simp_all [recording, InFlight.fits]
  | @recorded x' alerting' outcome hf' hs' =>
    obtain ⟨rfl, rfl⟩ : x = x' ∧ alerting = alerting' := by simpa [hf] using hf'
    exact .inr ⟨outcome, by simpa [Act.proceeds] using ha, rfl, recording_registering outcome hf hs⟩
  | discarded hf' hs' => exact absurd hs' hs
  | moved | registering | retrying | gaveUp | missed | fetching | uncalled | enqueued | refused
  | pulled => simp_all
  | _ => simp [Act.proceeds, Act.isRequest] at ha

namespace Underway

variable {y : Option Endpoint} {d : UInt64} {c : List (Option Endpoint)} {j : List Recording}

theorem of_kept (h : Underway x y d r c j) (hk : Kept r r') : Underway x y d r' c j := by
  obtain ⟨he, hs, hd, hstage⟩ := h
  obtain ⟨h1, h2, h3, h4⟩ := hk
  refine ⟨h1.trans he, h2 ▸ hs, h3 ▸ hd, ?_⟩
  cases hstage with
  | called hf hp => exact .called (h4.trans hf) (h3 ▸ hp)
  | waiting hw hp => exact h2 ▸ .waiting (h3 ▸ hw) (h3 ▸ hp)
  | taken hw hf hp => exact h2 ▸ .taken (h3 ▸ hw) (h4.trans hf) (h3 ▸ hp)
  | recalled hf hp => exact .recalled (h4.trans hf) (h3 ▸ hp)
  | rested hw hp => exact h2 ▸ .rested (h3 ▸ hw) (h3 ▸ hp)

theorem moved (h : Underway x y d r c j) (hr : Steady r) (hw : r.worker.current? = none) :
    Underway x y d { r with worker := r.worker.advance } c j := by
  have hf : r.inFlight = none := by simpa [hw] using hr.current_of_inFlight
  obtain ⟨he, hs, hd, hstage⟩ := h
  refine ⟨he, hs, (Worker.advance_dropped _).trans hd, ?_⟩
  obtain ⟨hcur, hpend⟩ | ⟨job, -, hjob, hadv⟩ := Worker.advance_cases hr.closed_eq
  · cases hstage with
    | waiting hw' hp => exact .waiting (hcur.trans hw) (hpend.trans hp)
    | rested hw' hp => exact .rested (hcur.trans hw) (hpend.trans hp)
    | called hf' | taken hw' | recalled hf' => simp_all
  · cases hstage with
    | @waiting again hw' hp =>
      obtain rfl : .register again = job := by simpa [hp] using hjob
      exact .taken (by rw [hadv]; rfl) hf (by rw [hadv])
    | called hf' | taken hw' | recalled hf' | rested hw' hp => simp_all

theorem step_of_rest (h : Underway x y d r c j) (hr : Steady r) (hcur : r.worker.current? = none)
    (ha : a.proceeds) : Underway x y d (act a r) (c ++ calling a r) (j ++ recording a r) := by
  have hf : r.inFlight = none := by simpa [hcur] using hr.current_of_inFlight
  by_cases hw : a = .work
  · have hact : act .work r = { r with worker := r.worker.advance } := act_work_of_rest hcur
    subst hw
    rw [calling_of_not_begun (.inr (by rw [hact]; exact hf)), hact]
    simpa [recording] using h.moved hr hcur
  · obtain ⟨hk, hc, hj⟩ := kept_of_not_work hf hw ha
    simpa [hc, hj] using h.of_kept hk

theorem step_of_inFlight {z : Option Endpoint} {alerting : Bool} (h : Underway x y d r c j)
    (hr : Steady r) (hf : r.inFlight = some (.registering z alerting)) (ha : a.proceeds)
    (hanswer : ∀ outcome, Stage x y ((r.withStatus outcome).publish.tellFailure alerting outcome).done
      c (j ++ [⟨z, outcome⟩])) :
    Underway x y d (act a r) (c ++ calling a r) (j ++ recording a r) := by
  rw [calling_of_not_begun (.inl (by simp [hf])), List.append_nil]
  obtain ⟨hk, hj⟩ | ⟨outcome, ho, hact, hj⟩ := kept_or_recorded hr hf h.status_ne ha
  · simpa [hj] using h.of_kept hk
  · rw [hact, hj]
    obtain ⟨he, hs, hd, -⟩ := h
    exact ⟨by simpa using he, by simpa using ho, by simpa using hd, hanswer outcome⟩

theorem step (h : Underway x y d r c j) (hr : Steady r) (ha : a.proceeds) :
    Underway x y d (act a r) (c ++ calling a r) (j ++ recording a r) := by
  obtain ⟨he, hs, hd, hstage⟩ := id h
  cases hstage with
  | called hf hp =>
    refine h.step_of_inFlight hr hf ha fun outcome => ?_
    simpa using Stage.waiting (r := ((r.withStatus outcome).publish.tellFailure _ outcome).done)
      (by simp) (by simpa using hp)
  | waiting hw hp => exact h.step_of_rest hr hw ha
  | @taken again hw hf hp =>
    by_cases hwork : a = .work
    · subst hwork
      have hact : act .work r = r.await (.registering r.endpoint again) := by
        simp [act, advance, hw, hf, perform, Job.start, on_startRegistration, await]
      have hc : calling .work r = [y] := by simp [calling, call?, hact, hf, InFlight.call, he]
      have hf' : (r.await (.registering r.endpoint again)).inFlight =
          some (.registering y again) := by simp [he]
      rw [hact, hc]
      exact ⟨he, hs, hd, .recalled hf' hp⟩
    · obtain ⟨hk, hc, hj⟩ := kept_of_not_work hf hwork ha
      simpa [hc, hj] using h.of_kept hk
  | recalled hf hp =>
    refine h.step_of_inFlight hr hf ha fun outcome => ?_
    simpa using Stage.rested (r := ((r.withStatus outcome).publish.tellFailure _ outcome).done)
      (by simp) (by simpa using hp)
  | rested hw hp => exact h.step_of_rest hr hw ha

theorem after (h : Underway x y d r [] []) (hr : Steady r) (ha : ∀ a ∈ acts, a.proceeds) :
    Underway x y d (r.after acts) (r.calls acts) (r.recordings acts) := by
  induction acts using List.reverseRecOn with
  | nil => exact h
  | append_singleton acts a ih =>
    have hacts := ih fun b hb => ha b (List.mem_append_left _ hb)
    rw [after_append, calls_append, calls_singleton, recordings_append, recordings_singleton]
    exact hacts.step (hr.after acts) (ha a (by simp))

end Underway

/-- While the relay is called and nothing waits, endpoints come of which some differ from the one before,
and nothing else is asked. Once the worker is idle, the relay has been called one more time, for the
endpoint that came last; the status is the outcome of that call, and all registrations but one that were
queued for the changes have been dropped. A receiver whose calls are answered gets there. -/
theorem coalesces (name : String) (s : σ) (clock : UInt64) (policy : Fetch.Policy)
    (delivery : Fetch.Delivery) (before : List Act) (x : Option Endpoint) (alerting : Bool)
    (es : List (Endpoint × String)) :
    let r := (new name s clock policy delivery).after before
    let r' := r.after (arrivals es)
    let n := changes r.endpoint (es.map Prod.fst)
    Eager r.status → r.inFlight = some (.registering x alerting) → r.worker.pending = none → n ≠ 0 →
    (∀ acts, (∀ a ∈ acts, a.proceeds) → (r'.after acts).worker.idle →
      ∃ e outcome again, (es.map Prod.fst).getLast? = some e ∧ r'.calls acts = [some e] ∧
        r'.recordings acts = [⟨x, outcome⟩, ⟨some e, again⟩] ∧
        (r'.after acts).endpoint = some e ∧ (r'.after acts).status = again ∧
        (r'.after acts).worker.dropped = r.worker.dropped + UInt64.ofNat (n - 1)) ∧
    ∀ {ε : Type} (respond : Respond σ ε) (env : ε), Attends respond → Admits respond →
      ∃ acts, (∀ a ∈ acts, a.proceeds) ∧ (r'.settle respond env).1 = r'.after acts ∧
        (r'.after acts).worker.idle := by
  intro r r' n hs hf hp hn
  have hr : Steady r := (steady_new name s clock policy delivery).after before
  have hr' : Steady r' := hr.after (arrivals es)
  obtain ⟨he, hstatus, hflight, hworker⟩ := arrived hs es
  obtain ⟨m, hm⟩ := Nat.exists_eq_succ_of_ne_zero hn
  obtain ⟨e, hlast⟩ : ∃ e, (es.map Prod.fst).getLast? = some e := by
    cases es using List.reverseRecOn with
    | nil => exact absurd rfl hn
    | append_singleton es p => exact ⟨p.1, by simp⟩
  have hsubmits : r'.worker = r.worker.after
      (List.replicate (m + 1) (.submit (.register (r.status == .registered)))) := by
    rw [hworker]
    exact congrArg (fun k => r.worker.after (List.replicate k _)) hm
  obtain ⟨hpending, hdropped⟩ :=
    Worker.after_replicate_submit (.register (r.status == .registered)) hr.closed_eq hp m
  rw [← hsubmits] at hpending hdropped
  have hunder : Underway x (some e) (r.worker.dropped + UInt64.ofNat m) r' [] [] := by
    refine ⟨by simp [r', he, hlast], ?_, hdropped, .called (hflight.trans hf) hpending⟩
    rw [hstatus]
    obtain h | h | h := hs <;> simp [h]
  refine ⟨fun acts hacts hi => ?_, fun respond env h hadmits => exists_settle_eq h hadmits hr' env⟩
  obtain ⟨hp', hcur, hf'⟩ := (hr'.after acts).rest_of_idle hi
  have hend := hunder.after hr' hacts
  have hm' : n - 1 = m := by omega
  obtain ⟨hend1, -, hend3, hstage⟩ := hend
  generalize r'.calls acts = c at hstage
  generalize r'.recordings acts = j at hstage
  cases hstage with
  | rested hw hp => exact ⟨e, _, _, hlast, rfl, rfl, hend1, rfl, hm' ▸ hend3⟩
  | _ => simp_all

/-- Three of four endpoints differ from the one before while the relay is called for `B`. That call fails;
a relay that is content with every endpoint would do as well. -/
theorem coalesces_of_three_changes :
    let s := Store.Values.putEndpoint ⟨"A"⟩
      (Store.Values.putStatus .registered Store.Entries.empty)
    let before : List Act := [.handle (.newEndpoint ⟨"B"⟩ "default"), .work, .work, .work]
    let r := (new "registration" s 0 default (.fixed true)).after before
    let es : List (Endpoint × String) := [(⟨"C"⟩, "1"), (⟨"B"⟩, "1"), (⟨"B"⟩, "2"), (⟨"D"⟩, "1")]
    let r' := r.after (arrivals es)
    let acts : List Act :=
      [.answer (.registered .internalError), .work, .work, .answer (.registered .registered), .work]
    let respond : Respond Store.Entries Unit := fun call s _ =>
      match call with
      | .register _ => some (.registered .registered, s, ())
      | .enqueue _ => some (.enqueued (.ok true), s, ())
      | .legacyPull => some (.pulled (.ok ()), s, ())
    r.inFlight = some (.registering (some ⟨"B"⟩) true) ∧ changes r.endpoint (es.map Prod.fst) = 3 ∧
      r'.calls acts = [some ⟨"D"⟩] ∧
      (r'.after acts).worker.dropped = r.worker.dropped + UInt64.ofNat 2 ∧
      ∃ acts, (r'.settle respond ()).1 = r'.after acts ∧ (r'.after acts).worker.idle := by
  intro s before r es r' acts respond
  have hf : r.inFlight = some (.registering (some ⟨"B"⟩) true) := by decide +kernel
  have hs : r.status = .registered := by decide +kernel
  have hp : r.worker.pending = none := by decide +kernel
  have hn : changes r.endpoint (es.map Prod.fst) = 3 := by decide +kernel
  have ha : ∀ a ∈ acts, a.proceeds := by decide
  have hi : (r'.after acts).worker.idle := by decide +kernel
  have hattends : Attends respond := by
    intro task s env
    cases task <;> exact ⟨_, _, rfl, rfl⟩
  have hadmits : Admits respond := by
    intro call s env s' env'
    cases call <;> simp [respond]
  -- from here on the two receivers are what they were made by, and not looked into
  have hr : r = (new "registration" s 0 default (.fixed true)).after before := rfl
  have hr' : r' = r.after (arrivals es) := rfl
  clear_value r' r
  subst hr' hr
  obtain ⟨hall, hsettle⟩ :=
    coalesces "registration" s 0 default (.fixed true) before (some ⟨"B"⟩) true es (.inl hs) hf hp
      (by rw [hn]; decide)
  obtain ⟨e, o, o', he, hc, -, -, -, hd⟩ := hall acts ha hi
  obtain rfl : (⟨"D"⟩ : Endpoint) = e := by simpa [es] using he
  rw [hn] at hd
  obtain ⟨acts', -, heq, hidle⟩ := hsettle respond () hattends hadmits
  exact ⟨hf, hn, hc, hd, acts', heq, hidle⟩

end PushKeeper.Receiver
