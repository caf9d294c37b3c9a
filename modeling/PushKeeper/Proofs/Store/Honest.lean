import PushKeeper.Proofs.Store.Faultless
import PushKeeper.Store.File

namespace PushKeeper.Store

open Registration (Endpoint Status)

/-- A store that may refuse an access, and otherwise behaves as the entries it shows. -/
class Honest (σ : Type) [KeyValueStore σ] where
  entries : σ → Entries
  get_ok {key : String} {s : σ} {value : Option String} :
    KeyValueStore.get key s = .ok value → value = (entries s).get? key
  put_ok {key value : String} {s : σ} : (KeyValueStore.put key value s).1 = .ok () →
    entries (KeyValueStore.put key value s).2 = (entries s).insert key value
  put_error {key value : String} {s : σ} {e : Failure} :
    (KeyValueStore.put key value s).1 = .error e →
      entries (KeyValueStore.put key value s).2 = entries s
  remove_ok {key : String} {s : σ} : (KeyValueStore.remove key s).1 = .ok () →
    entries (KeyValueStore.remove key s).2 = (entries s).erase key
  remove_error {key : String} {s : σ} {e : Failure} :
    (KeyValueStore.remove key s).1 = .error e → entries (KeyValueStore.remove key s).2 = entries s

instance {σ : Type} [KeyValueStore σ] [Faultless σ] : Honest σ where
  entries := Faultless.entries
  get_ok {key s value} h := by
    rw [Faultless.get_eq] at h
    exact (Except.ok.inj h).symm
  put_ok _ := Faultless.entries_put _ _ _
  put_error h := by
    rw [Faultless.put_ok] at h
    cases h
  remove_ok _ := Faultless.entries_remove _ _
  remove_error h := by
    rw [Faultless.remove_ok] at h
    cases h

/-- A store that is as it was before when it has refused a change, and so refuses it again. -/
class Intact (σ : Type) [KeyValueStore σ] : Prop where
  put_error {key value : String} {s : σ} {e : Failure} :
    (KeyValueStore.put key value s).1 = .error e → (KeyValueStore.put key value s).2 = s
  remove_error {key : String} {s : σ} {e : Failure} :
    (KeyValueStore.remove key s).1 = .error e → (KeyValueStore.remove key s).2 = s

instance {σ : Type} [KeyValueStore σ] [Faultless σ] : Intact σ where
  put_error h := by
    rw [Faultless.put_ok] at h
    cases h
  remove_error h := by
    rw [Faultless.remove_ok] at h
    cases h

namespace FaultyStore

theorem change_ok {s : FaultyStore} {access : StoreAccess} {key : String} {e : Entries}
    (h : (s.change access key e).1 = .ok ()) : (s.change access key e).2.entries = e := by
  cases hr : s.refuses access key <;> simp_all [change]

theorem change_error {s : FaultyStore} {access : StoreAccess} {key : String} {e : Entries}
    {cause : Failure} (h : (s.change access key e).1 = .error cause) :
    (s.change access key e).2.entries = s.entries := by
  cases hr : s.refuses access key <;> simp_all [change]

instance : Honest FaultyStore where
  entries := FaultyStore.entries
  get_ok {key s value} h := by
    cases hr : s.refuses .get key <;> simp_all [KeyValueStore.get, attempt]
  put_ok := change_ok
  put_error := change_error
  remove_ok := change_ok
  remove_error := change_error

theorem change_intact {s : FaultyStore} {access : StoreAccess} {key : String} {e : Entries}
    {cause : Failure} (h : (s.change access key e).1 = .error cause) : (s.change access key e).2 = s := by
  cases hr : s.refuses access key <;> simp_all [change]

instance : Intact FaultyStore where
  put_error := change_intact
  remove_error := change_intact

end FaultyStore

namespace FileStore

theorem restore_of_eq {e changed : Entries} {key : String}
    (h : ∀ k, k ≠ key → changed.get? k = e.get? k) : restore changed key (e.get? key) = e := by
  refine Entries.ext fun k => ?_
  cases hv : e.get? key with
  | none =>
    by_cases hk : k = key
    · simp [restore, hk, hv]
    · simpa [restore, hk] using h k hk
  | some value =>
    by_cases hk : k = key
    · simp [restore, hk, hv]
    · simpa [restore, hk] using h k hk

theorem erase_of_isNone {e : Entries} {key : String} (h : (e.get? key).isNone) : e.erase key = e := by
  refine Entries.ext fun k => ?_
  by_cases hk : k = key
  · simpa [hk] using (Option.isNone_iff_eq_none.1 h).symm
  · simp [hk]

variable {δ : Type} [Device δ] {key : String} {change : Entries → Entries} {s : FileStore × δ}

theorem update_ok (h : (update key change s).1 = .ok ()) :
    (update key change s).2.1.entries = change s.1.entries := by
  obtain ⟨store, device⟩ := s
  rcases hp : persist store.path (change store.entries) device with ⟨_ | _, device'⟩ <;>
    simp_all [update]

theorem update_error {cause : Failure}
    (hc : ∀ k, k ≠ key → (change s.1.entries).get? k = s.1.entries.get? k)
    (h : (update key change s).1 = .error cause) :
    (update key change s).2.1.entries = s.1.entries := by
  obtain ⟨store, device⟩ := s
  rcases hp : persist store.path (change store.entries) device with ⟨_ | _, device'⟩
  · simpa [update, hp] using restore_of_eq hc
  · simp [update, hp] at h

instance : Honest (FileStore × δ) where
  entries s := s.1.entries
  get_ok h := (Except.ok.inj h).symm
  put_ok := update_ok
  put_error := update_error fun k hk => by simp [hk]
  remove_ok {key s} h := by
    by_cases hn : (s.1.entries.get? key).isNone
    · simp [KeyValueStore.remove, hn, erase_of_isNone hn]
    · simp only [KeyValueStore.remove, if_neg hn] at h ⊢
      exact update_ok h
  remove_error {key s e} h := by
    by_cases hn : (s.1.entries.get? key).isNone
    · simp [KeyValueStore.remove, hn]
    · simp only [KeyValueStore.remove, if_neg hn] at h ⊢
      exact update_error (fun k hk => by simp [hk]) h

end FileStore

namespace Entries

def endpoint (e : Entries) : Option Endpoint :=
  (e.get? Values.endpointKey).map Endpoint.mk

def status (e : Entries) : Status :=
  Values.statusOf (e.get? Values.statusKey)

section

open Values

variable (e : Entries)

@[simp] theorem status_insert_status (status : Status) :
    (e.insert statusKey (Text.Numeral.render status.ordinal)).status = status := by
  simp [Entries.status, statusOf_render]

@[simp] theorem status_insert_endpoint (value : String) :
    (e.insert endpointKey value).status = e.status := by
  simp [status, statusKey, endpointKey]

@[simp] theorem status_erase_endpoint : (e.erase endpointKey).status = e.status := by
  simp [status, statusKey, endpointKey]

@[simp] theorem status_insert_lastFetch (value : String) :
    (e.insert lastFetchKey value).status = e.status := by
  simp [status, statusKey, lastFetchKey]

@[simp] theorem endpoint_insert_status (value : String) :
    (e.insert statusKey value).endpoint = e.endpoint := by
  simp [endpoint, endpointKey, statusKey]

@[simp] theorem endpoint_insert_lastFetch (value : String) :
    (e.insert lastFetchKey value).endpoint = e.endpoint := by
  simp [endpoint, endpointKey, lastFetchKey]

end

end Entries

variable {σ : Type} [KeyValueStore σ] [Honest σ]

theorem Honest.entries_put (key value : String) (s : σ) :
    entries (KeyValueStore.put key value s).2 = entries s ∨
      entries (KeyValueStore.put key value s).2 = (entries s).insert key value := by
  cases h : (KeyValueStore.put key value s).1 with
  | error e => exact .inl (put_error h)
  | ok u => exact .inr (put_ok h)

/-- How a change of the entries can come out that is made where it applies. -/
inductive Attempt (s : σ) (applies : Prop) (changed : Entries) : Except Failure Bool × σ → Prop
  | failed {e : Failure} {s' : σ} (h : Honest.entries s' = Honest.entries s) :
      Attempt s applies changed (.error e, s')
  | skipped (h : ¬ applies) : Attempt s applies changed (.ok false, s)
  | made {s' : σ} (h : applies) (hs : Honest.entries s' = changed) :
      Attempt s applies changed (.ok true, s')

namespace Attempt

variable {s : σ} {applies : Prop} {changed : Entries} {r : Except Failure Bool × σ}

theorem unchanged (h : Attempt s applies changed r) (hr : r.1 ≠ .ok true) :
    Honest.entries r.2 = Honest.entries s := by
  cases h with
  | failed h => exact h
  | skipped h => rfl
  | made h hs => exact absurd rfl hr

theorem eq_changed (h : Attempt s applies changed r) (hr : r.1 = .ok true) :
    Honest.entries r.2 = changed := by
  cases h with
  | failed h => cases hr
  | skipped h => cases hr
  | made h hs => exact hs

theorem iff_applies {b : Bool} (h : Attempt s applies changed r) (hr : r.1 = .ok b) :
    b = true ↔ applies := by
  cases h with
  | failed h => cases hr
  | skipped h => simpa [← Except.ok.inj hr] using h
  | made h hs => simpa [← Except.ok.inj hr] using h

end Attempt

namespace Values

variable {s : σ}

theorem endpoint_ok {x : Option Endpoint} (h : Values.endpoint s = .ok x) :
    x = (Honest.entries s).endpoint := by
  rw [Values.endpoint] at h
  cases hg : KeyValueStore.get endpointKey s with
  | error e => rw [hg] at h; cases h
  | ok value => rw [hg] at h; cases h; rw [Honest.get_ok hg]; rfl

theorem status_ok {status : Status} (h : Values.status s = .ok status) :
    status = (Honest.entries s).status := by
  rw [Values.status] at h
  cases hg : KeyValueStore.get statusKey s with
  | error e => rw [hg] at h; cases h
  | ok value => rw [hg] at h; cases h; rw [Honest.get_ok hg]; rfl

end Values

end PushKeeper.Store
