import PushKeeper.Failure
import PushKeeper.Store.Entries

namespace PushKeeper.Store

/-- Work on a store that can fail; what was changed before the failure stays changed. -/
abbrev Access (σ α : Type) := ExceptT Failure (StateM σ) α

class KeyValueStore (σ : Type) where
  get : String → σ → Except Failure (Option String)
  put : String → String → σ → Except Failure Unit × σ
  remove : String → σ → Except Failure Unit × σ

def reading {σ α : Type} (f : σ → Except Failure α) : Access σ α :=
  ExceptT.mk fun s => (f s, s)

def writing {σ α : Type} (f : σ → Except Failure α × σ) : Access σ α :=
  ExceptT.mk f

def Access.on {σ α : Type} (work : Access σ α) (s : σ) : Except Failure α × σ :=
  work.run.run s

@[simp] theorem on_pure {σ α : Type} (a : α) (s : σ) :
    Access.on (pure a : Access σ α) s = (.ok a, s) := rfl

@[simp] theorem on_throw {σ α : Type} (e : Failure) (s : σ) :
    Access.on (throw e : Access σ α) s = (.error e, s) := rfl

@[simp] theorem on_reading {σ α : Type} (f : σ → Except Failure α) (s : σ) :
    (reading f).on s = (f s, s) := rfl

@[simp] theorem on_writing {σ α : Type} (f : σ → Except Failure α × σ) (s : σ) :
    (writing f).on s = f s := rfl

theorem on_bind {σ α β : Type} (x : Access σ α) (f : α → Access σ β) (s : σ) :
    Access.on (x >>= f) s =
      match x.on s with
      | (.ok a, s) => (f a).on s
      | (.error e, s) => (.error e, s) := by
  simp only [Access.on, ExceptT.run_bind, StateT.run_bind]
  rcases h : x.run.run s with ⟨_ | _, _⟩ <;> rfl

theorem on_map {σ α β : Type} (f : α → β) (x : Access σ α) (s : σ) :
    Access.on (f <$> x) s =
      match x.on s with
      | (.ok a, s) => (.ok (f a), s)
      | (.error e, s) => (.error e, s) := by
  rw [map_eq_pure_bind, on_bind]
  rfl

@[simp] theorem on_modify {σ : Type} (f : σ → σ) (s : σ) :
    Access.on (modify f : Access σ Unit) s = (.ok (), f s) := rfl

@[simp] theorem on_get {σ : Type} (s : σ) : Access.on (get : Access σ σ) s = (.ok s, s) := rfl

instance : KeyValueStore Entries where
  get key e := .ok (e.get? key)
  put key value e := (.ok (), e.insert key value)
  remove key e := (.ok (), e.erase key)

/-- A store in memory that refuses some accesses to some keys. -/
structure FaultyStore where
  entries : Entries
  refused : List (StoreAccess × String)

namespace FaultyStore

def refuses (s : FaultyStore) (access : StoreAccess) (key : String) : Bool :=
  s.refused.contains (access, key)

def attempt {α : Type} (s : FaultyStore) (access : StoreAccess) (key : String) (result : α) :
    Except Failure α :=
  if s.refuses access key then .error (.store (.refused access key)) else .ok result

def change (s : FaultyStore) (access : StoreAccess) (key : String) (entries : Entries) :
    Except Failure Unit × FaultyStore :=
  if s.refuses access key then (.error (.store (.refused access key)), s)
  else (.ok (), { s with entries })

instance : KeyValueStore FaultyStore where
  get key s := s.attempt .get key (s.entries.get? key)
  put key value s := s.change .put key (s.entries.insert key value)
  remove key s := s.change .remove key (s.entries.erase key)

end FaultyStore

end PushKeeper.Store
