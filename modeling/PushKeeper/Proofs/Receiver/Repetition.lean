import PushKeeper.Proofs.Receiver.Faults

namespace PushKeeper.Receiver

open Registration (Endpoint Status)
open Store (FaultyStore Honest Intact KeyValueStore on_bind)
open Store.Values

variable {σ : Type} [KeyValueStore σ] [Honest σ] {r : Receiver σ} {e : Endpoint} {enabled : Bool}

theorem on_newEndpoint_of_stored (h : r.entries.endpoint = some e) : ((newEndpoint e).on r).2 = r := by
  obtain ⟨result, hne, hrun⟩ : ∃ result, result ≠ .ok true ∧
      (replaceEndpoint e).on r.store = (result, r.store) :=
    Operation.on_run_of_not_applies (.replaceEndpoint e) fun hne => hne h
  rw [newEndpoint, on_bind, on_ofStore]
  cases Store.Values.status r.store with
  | error cause => rfl
  | ok before =>
    simp only [on_bind, on_onStore, hrun]
    rcases result with cause | _ | _
    · rfl
    · rfl
    · exact absurd rfl hne

theorem on_setAirGapped_of_same (h : r.entries.status = .airGapped ↔ enabled = true) :
    ((setAirGapped enabled).on r).2 = r := by
  obtain ⟨result, hne, hrun⟩ : ∃ result, result ≠ .ok true ∧
      (switchAirGapped enabled).on r.store = (result, r.store) :=
    Operation.on_run_of_not_applies (.switchAirGapped enabled) fun hne => hne <| by
      cases enabled <;> simpa [entries] using h
  rw [setAirGapped, on_bind, on_onStore, hrun]
  rcases result with cause | _ | _
  · rfl
  · rfl
  · exact absurd rfl hne

variable [Intact σ]

theorem on_newEndpoint_cases (r : Receiver σ) (e : Endpoint) :
    ((newEndpoint e).on r).2 = r ∨ ((newEndpoint e).on r).2.entries.endpoint = some e := by
  rw [newEndpoint, on_bind, on_ofStore]
  cases Store.Values.status r.store with
  | error cause => exact .inl rfl
  | ok before =>
    simp only [on_bind, on_onStore]
    have ha := attempt_replaceEndpoint r.store e
    have hintact : ((replaceEndpoint e).on r.store).1 ≠ .ok true →
        ((replaceEndpoint e).on r.store).2 = r.store := Operation.on_run_of_ne (.replaceEndpoint e)
    generalize (replaceEndpoint e).on r.store = result at ha hintact ⊢
    cases ha with
    | failed hs => exact .inl (by rw [hintact (by simp)])
    | skipped hs => exact .inl rfl
    | made hs hentries =>
      right
      simp [entries, hentries, Store.Entries.endpoint]

theorem on_setAirGapped_cases (r : Receiver σ) (enabled : Bool) :
    ((setAirGapped enabled).on r).2 = r ∨
      (((setAirGapped enabled).on r).2.entries.status = .airGapped ↔ enabled = true) := by
  cases hr : ((switchAirGapped enabled).on r.store).1 with
  | ok b =>
    right
    rw [entries, store_setAirGapped]
    exact Operation.status_of_switchAirGapped hr
  | error cause =>
    left
    have hne : ((switchAirGapped enabled).on r.store).1 ≠ .ok true := by simp [hr]
    have hs : ((switchAirGapped enabled).on r.store).2 = r.store :=
      Operation.on_run_of_ne (.switchAirGapped enabled) hne
    rw [setAirGapped, on_bind, on_onStore, hr, hs]

theorem newEndpoint_newEndpoint (r : Receiver σ) (e : Endpoint) (i i' : String) :
    act (.handle (.newEndpoint e i')) (act (.handle (.newEndpoint e i)) r) =
      act (.handle (.newEndpoint e i)) r := by
  show ((newEndpoint e).on ((newEndpoint e).on r).2).2 = ((newEndpoint e).on r).2
  obtain h | h := on_newEndpoint_cases r e
  · rw [h, h]
  · exact on_newEndpoint_of_stored h

theorem airGapped_airGapped (r : Receiver σ) (enabled : Bool) :
    act (.airGapped enabled) (act (.airGapped enabled) r) = act (.airGapped enabled) r := by
  show ((setAirGapped enabled).on ((setAirGapped enabled).on r).2).2 = ((setAirGapped enabled).on r).2
  obtain h | h := on_setAirGapped_cases r enabled
  · rw [h, h]
  · exact on_setAirGapped_of_same h

/-- Whatever has happened, whatever is under way and whatever the store refuses, the second of two equal
deliveries can be left out: an endpoint that comes twice in a row, and a mode that is asked for twice. What
it leaves is the same receiver, in all its parts. -/
theorem repetition_is_absorbed (name : String) (s : σ) (clock : UInt64) (policy : Fetch.Policy)
    (delivery : Fetch.Delivery) (before rest : List (Happening σ)) (e : Endpoint) (i i' : String)
    (enabled : Bool) :
    let r := new name s clock policy delivery
    r.afterAll (before ++
        .act (.handle (.newEndpoint e i)) :: .act (.handle (.newEndpoint e i')) :: rest) =
      r.afterAll (before ++ .act (.handle (.newEndpoint e i)) :: rest) ∧
    r.afterAll (before ++ .act (.airGapped enabled) :: .act (.airGapped enabled) :: rest) =
      r.afterAll (before ++ .act (.airGapped enabled) :: rest) := by
  intro r
  constructor
  · refine Run.after_absorbed ?_ r before rest
    intro t
    exact newEndpoint_newEndpoint t e i i'
  · refine Run.after_absorbed ?_ r before rest
    intro t
    exact airGapped_airGapped t enabled

/-- The relay is called for one endpoint, another comes twice, and the status cannot be written: one task is
queued, none is dropped, and the mode that is asked for twice is not on. -/
theorem repetition_is_absorbed_of_unwritable_status :
    let s : FaultyStore :=
      ⟨putEndpoint ⟨"A"⟩ (putStatus .registered Store.Entries.empty), [(.put, statusKey)]⟩
    let r := new "registration" s 0 default (.fixed true)
    let before : List (Happening FaultyStore) := [.act .retry, .act .work, .act .work, .act .work]
    let once := r.afterAll (before ++ [.act (.handle (.newEndpoint ⟨"B"⟩ "default"))])
    once.call? = some (.register (some ⟨"A"⟩)) ∧ once.worker.pending = some (.register true) ∧
      once.worker.dropped = 0 ∧ once.entries.endpoint = some ⟨"B"⟩ ∧
      r.afterAll (before ++ [.act (.handle (.newEndpoint ⟨"B"⟩ "default")),
        .act (.handle (.newEndpoint ⟨"B"⟩ "again"))]) = once ∧
      r.afterAll (before ++ [.act (.airGapped true), .act (.airGapped true)]) =
        r.afterAll (before ++ [.act (.airGapped true)]) := by
  intro s r before once
  obtain ⟨hendpoint, hmode⟩ := repetition_is_absorbed "registration" s 0 default (.fixed true) before []
    ⟨"B"⟩ "default" "again" true
  exact ⟨by decide +kernel, by decide +kernel, by decide +kernel, by decide +kernel, hendpoint, hmode⟩

end PushKeeper.Receiver
