import PushKeeper.Proofs.Receiver.Faults
import PushKeeper.Proofs.Receiver.Observers

namespace PushKeeper.Receiver

open Registration (Endpoint Snapshot Status)
open Store (Access Entries Faultless Honest KeyValueStore on_bind)
open Store.Values

def Act.movesEndpoint : Act → Bool
  | .handle (.newEndpoint ..) => true
  | .handle (.unregistered _) => true
  | _ => false

section

variable {σ : Type} [KeyValueStore σ] [Honest σ] {r r' r'' : Receiver σ} {a : Act}

def shown (r : Receiver σ) : Snapshot := ⟨r.entries.endpoint, r.entries.status⟩

def Announces (r r' : Receiver σ) : Prop :=
  r'.published = r.published ∨ r'.published = r.published ++ [r'.shown]

theorem Announces.of_eq (h : Announces r r') (hs : r''.store = r'.store)
    (hp : r''.published = r'.published) : Announces r r'' := by
  have hshown : r''.shown = r'.shown := by rw [shown, shown, entries_eq hs]
  rwa [Announces, hp, hshown]

theorem snapshot_ok {s : Snapshot} (h : Store.Values.snapshot r.store = .ok s) : s = r.shown := by
  cases he : Store.Values.endpoint r.store with
  | error e => simp [Store.Values.snapshot, he, bind, Except.bind] at h
  | ok x =>
    cases hs : Store.Values.status r.store with
    | error e => simp [Store.Values.snapshot, he, hs, bind, Except.bind] at h
    | ok status =>
      rw [Store.Values.snapshot, he, hs] at h
      obtain rfl : ⟨x, status⟩ = s := Except.ok.inj h
      rw [endpoint_ok he, status_ok hs]
      rfl

theorem announces_publish (h : r'.published = r.published) : Announces r r'.publish := by
  unfold publish
  split
  next s hs =>
    refine .inr ?_
    rw [published_note, h, snapshot_ok hs]
    rfl
  next => exact .inl h

theorem announces_onStore {α : Type} {work : Access σ Bool} {f : Bool → Access (Receiver σ) α}
    (hnot : ∀ r', ((f false).on r').2.published = r'.published)
    (hmade : ∀ s, Announces r ((f true).on { r with store := s }).2) :
    Announces r ((onStore work >>= f).on r).2 := by
  rw [on_bind, on_onStore]
  generalize work.on r.store = result
  obtain ⟨_ | _ | _, s⟩ := result
  · exact .inl rfl
  · exact .inl (hnot { r with store := s })
  · exact hmade s

theorem announces_followUp (before : Status) (h : r'.published = r.published) :
    Announces r (followUp before r') := by
  cases before with
  | unconfigured => exact announces_publish h
  | airGapped => exact (announces_publish h).of_eq (store_alert _ _) (published_alert _ _)
  | registered | internalError | missingEndpoint => exact .inl h

theorem announces_newEndpoint (r : Receiver σ) (e : Endpoint) : Announces r ((newEndpoint e).on r).2 := by
  rw [newEndpoint, on_bind, on_ofStore]
  cases Store.Values.status r.store with
  | error cause => exact .inl rfl
  | ok before => exact announces_onStore (fun _ => rfl) fun s => announces_followUp before rfl

theorem announces_unregistered (r : Receiver σ) : Announces r (unregistered.on r).2 := by
  rw [unregistered, on_bind, on_onStore]
  generalize clearEndpoint.on r.store = result
  obtain ⟨_ | _, s⟩ := result
  · exact .inl rfl
  · exact announces_publish rfl

theorem announces_setAirGapped (r : Receiver σ) (enabled : Bool) :
    Announces r ((setAirGapped enabled).on r).2 := by
  refine announces_onStore (fun _ => rfl) fun s => ?_
  have hpublish : Announces r ({ r with store := s } : Receiver σ).publish := announces_publish rfl
  cases enabled with
  | true => exact hpublish
  | false =>
    cases he : Store.Values.endpoint s with
    | error cause => simpa [on_bind, he] using hpublish
    | ok x =>
      cases x with
      | none => simpa [on_bind, he] using hpublish
      | some e => simpa [on_bind, he] using hpublish.of_eq (store_submit _ _) (published_submit _ _)

theorem announces_endRegistration (r : Receiver σ) (alerting : Bool) (outcome : Status) :
    Announces r ((endRegistration alerting outcome).on r).2 := by
  refine announces_onStore (fun _ => rfl) fun s => ?_
  have hpublish : Announces r ({ r with store := s } : Receiver σ).publish := announces_publish rfl
  by_cases ht : (alerting && outcome != .registered) = true
  · simpa [on_bind, Store.on_map, ht] using hpublish.of_eq (store_alert _ _) (published_alert _ _)
  · simpa [on_bind, Store.on_map, ht] using hpublish

theorem announces_startRetry (r : Receiver σ) : Announces r (startRetry.on r).2 := by
  rw [startRetry, on_bind, on_ofStore]
  cases Store.Values.status r.store with
  | error cause => exact .inl rfl
  | ok status =>
    by_cases ha : status = .airGapped
    · simpa [ha] using .inl rfl
    · simp only [ha, if_false, on_bind, on_ofStore]
      cases Store.Values.endpoint r.store with
      | error cause => exact .inl rfl
      | ok x =>
        cases x with
        | some e => exact .inl (congrArg published (on_startRegistration_snd r false))
        | none => exact announces_endRegistration r false .missingEndpoint

theorem Announces.perform {part : Access (Receiver σ) (Option InFlight)} (h : Announces r (part.on r).2) :
    Announces r (r.perform part) := by
  refine h.of_eq (store_perform r part) ?_
  unfold Receiver.perform
  split <;> simp only [*] <;> rfl

theorem announces_work (r : Receiver σ) : Announces r r.advance := by
  unfold advance
  split
  next job _ _ =>
    cases job with
    | register alerting => exact .perform (.inl (by rw [Job.start, on_startRegistration_snd]))
    | retry => exact (announces_startRetry r).perform
    | fetch => exact .perform (.inl rfl)
  next => exact .inl rfl
  next => exact .inl rfl

theorem announces_answer (r : Receiver σ) (reply : Reply) : Announces r (r.answer reply) := by
  unfold answer
  split
  next task _ =>
    cases task with
    | registering x alerting =>
      cases reply with
      | registered outcome => exact (announces_endRegistration r alerting outcome).perform
      | _ => exact .perform (.inl rfl)
    | _ => cases reply <;> exact .perform (.inl rfl)
  next => exact .inl rfl

theorem announces_act (a : Act) (r : Receiver σ) : Announces r (act a r) := by
  cases a with
  | handle event =>
    cases event with
    | newEndpoint e i => exact announces_newEndpoint r e
    | registrationFailed i => exact .inl (published_alert r _)
    | unregistered i => exact announces_unregistered r
    | message p i =>
      refine .inl ?_
      simp only [act, handle, message]
      split <;> rfl
  | retry => exact .inl rfl
  | airGapped enabled => exact announces_setAirGapped r enabled
  | work => exact announces_work r
  | answer reply => exact announces_answer r reply
  | clock time => exact .inl rfl
  | delivery d => exact .inl rfl

theorem published_length_le (r : Receiver σ) (acts : List Act) :
    r.published.length ≤ (r.after acts).published.length := by
  refine Run.after_keeps (P := fun r' : Receiver σ => r.published.length ≤ r'.published.length)
    (Nat.le_refl _) fun a _ r' hr => Nat.le_trans hr ?_
  obtain hp | hp := announces_act a r' <;> simp [hp]

theorem Written.endpoint_eq {e : Entries} (h : Written r a e) (ha : a.movesEndpoint = false) :
    e.endpoint = r.entries.endpoint := by
  cases h with
  | nothing => rfl
  | endpoint | noEndpoint => cases ha
  | mode | missed | outcome | stamp => simp

def Happening.movesEndpoint : Happening σ → Bool
  | .act a => a.movesEndpoint
  | _ => false

structure Shows (x : Option Endpoint) (n : Nat) (r : Receiver σ) : Prop where
  endpoint_eq : r.entries.endpoint = x
  length_le : n ≤ r.published.length
  of_mem : ∀ s ∈ r.published.drop n, s.endpoint = x

variable {x : Option Endpoint} {n : Nat}

theorem Shows.of_announces (h : Announces r r') (he : r'.entries.endpoint = x) (hn : n ≤ r.published.length)
    (hs : ∀ s ∈ r.published.drop n, s.endpoint = x) : Shows x n r' := by
  obtain hp | hp := h
  · exact ⟨he, hp ▸ hn, hp ▸ hs⟩
  · refine ⟨he, ?_, fun s hmem => ?_⟩
    · rw [hp, List.length_append]
      exact Nat.le_add_right_of_le hn
    · rw [hp, List.drop_append_of_le_length hn, List.mem_append, List.mem_singleton] at hmem
      obtain hmem | rfl := hmem
      · exact hs s hmem
      · exact he

theorem Shows.happen {h : Happening σ} (hr : Shows x n r) (hh : h.movesEndpoint = false) :
    Shows x n (happen h r) := by
  cases h with
  | act a =>
    have he := (written_act r a).endpoint_eq hh
    exact .of_announces (announces_act a r) (he.trans hr.endpoint_eq) hr.length_le hr.of_mem
  | refusals s =>
    simp only [Receiver.happen]
    split
    next hs => exact ⟨(congrArg Entries.endpoint hs).trans hr.endpoint_eq, hr.length_le, hr.of_mem⟩
    next => exact hr
  | drop => exact ⟨hr.endpoint_eq, hr.length_le, hr.of_mem⟩

theorem shows_of_newEndpoint {e : Endpoint} {i : String} {hs : List (Happening σ)}
    (he : (act (.handle (.newEndpoint e i)) r).entries.endpoint = some e)
    (hh : ∀ h ∈ hs, h.movesEndpoint = false) :
    Shows (some e) r.published.length ((act (.handle (.newEndpoint e i)) r).afterAll hs) := by
  refine Run.after_keeps ?_ fun h hmem r hr => hr.happen (hh h hmem)
  exact .of_announces (announces_act _ r) he (Nat.le_refl _) (by simp)

end

section

variable {σ : Type} [KeyValueStore σ] [Faultless σ] {r r' : Receiver σ} {a : Act} {acts : List Act}
  {e : Endpoint} {i : String}

theorem Owing.of_step (hr : Registrar r) (ho : Owing r) (h : Step r a r') :
    Owing r' ∨ r.published.length < r'.published.length := by
  have hc := hr.steady.closed_eq
  cases h with
  | toldAirGapped | told | unregistered | entered | left | leftBare | missed | recorded => simp
  | queuedAlerting | queued | accepted | retry =>
    refine .inl ⟨by simpa using ho.1, .inl ?_⟩
    simp [Worker.submit_pending, hc]
  | moved hw => exact .inl (ho.moved hr hw)
  | gaveUp hw hf hs | discarded hf hs => exact absurd hs ho.1
  | fetching hw => exact absurd hw hr.current_ne
  | enqueued hf | refused hf | pulled hf =>
    obtain ⟨x, alerting, ht⟩ := hr.inFlight_eq _ hf
    cases ht
  | _ => exact .inl ho

theorem published_lt_of_owing (hr : Registrar r) (hm : ∀ a ∈ acts, a.isMessage = false) (ho : Owing r)
    (hi : (r.after acts).worker.idle) : r.published.length < (r.after acts).published.length := by
  -- At rest nothing is owed, so that something must have been published before.
  induction acts generalizing r with
  | nil =>
    obtain ⟨hpending, hcurrent⟩ := hr.steady.sound.rest_of_idle hi
    simp [Owing, hpending, hcurrent] at ho
  | cons a acts ih =>
    simp only [List.mem_cons, forall_eq_or_imp] at hm
    have hr' := hr.step (step_act r a) hm.1
    obtain ho' | hlt := ho.of_step hr (step_act r a)
    · exact Nat.lt_of_le_of_lt (published_length_le r [a]) (ih hr' hm.2 ho' hi)
    · exact Nat.lt_of_lt_of_le hlt (published_length_le _ acts)

theorem owing_of_newEndpoint (hr : Registrar r) (he : r.endpoint ≠ some e) :
    Owing (act (.handle (.newEndpoint e i)) r) ∨
      r.published.length < (act (.handle (.newEndpoint e i)) r).published.length := by
  have hc := hr.steady.closed_eq
  have h := step_act r (.handle (.newEndpoint e i))
  generalize act (.handle (.newEndpoint e i)) r = r' at h
  cases h with
  | sameEndpoint h => exact absurd h he
  | toldAirGapped | told => simp
  | queuedAlerting h hs => exact .inl ⟨by simp [hs], .inl (by simp [Worker.submit_pending, hc])⟩
  | queued h hs =>
    exact .inl ⟨by rcases hs with hs | hs <;> simp [hs], .inl (by simp [Worker.submit_pending, hc])⟩

theorem entries_endpoint_act_newEndpoint :
    (act (.handle (.newEndpoint e i)) r).entries.endpoint = some e := by
  have hentries : ∀ r : Receiver σ, r.entries.endpoint = r.endpoint := fun _ => rfl
  rw [hentries]
  have h := step_act r (.handle (.newEndpoint e i))
  generalize act (.handle (.newEndpoint e i)) r = r' at h
  cases h with
  | sameEndpoint h => exact h
  | _ => simp

theorem afterAll_map_act (r : Receiver σ) (acts : List Act) : r.afterAll (acts.map .act) = r.after acts := by
  rw [afterAll, Run.after, List.foldl_map]
  rfl

theorem exists_published_of_newEndpoint (hr : Registrar r) (he : r.endpoint ≠ some e)
    (hm : ∀ a ∈ acts, a.isMessage = false) (ha : ∀ a ∈ acts, a.movesEndpoint = false)
    (hi : ((act (.handle (.newEndpoint e i)) r).after acts).worker.idle) :
    ∃ s ∈ ((act (.handle (.newEndpoint e i)) r).after acts).published.drop r.published.length,
      s.endpoint = some e := by
  have hlt : r.published.length < ((act (.handle (.newEndpoint e i)) r).after acts).published.length := by
    obtain ho | hlt := owing_of_newEndpoint (i := i) hr he
    · have hr' := hr.step (step_act r (.handle (.newEndpoint e i))) rfl
      exact Nat.lt_of_le_of_lt (published_length_le r [.handle (.newEndpoint e i)])
        (published_lt_of_owing hr' hm ho hi)
    · exact Nat.lt_of_lt_of_le hlt (published_length_le _ acts)
  have hnew : ((act (.handle (.newEndpoint e i)) r).after acts).published.drop r.published.length ≠ [] := by
    simpa using hlt
  have hh : ∀ h ∈ acts.map (.act : Act → Happening σ), h.movesEndpoint = false := List.forall_mem_map.2 ha
  have hshows := shows_of_newEndpoint (entries_endpoint_act_newEndpoint (r := r) (e := e) (i := i)) hh
  rw [afterAll_map_act] at hshows
  obtain ⟨s, hs⟩ := List.exists_mem_of_ne_nil _ hnew
  exact ⟨s, hs, hshows.of_mem s hs⟩

end

end PushKeeper.Receiver
