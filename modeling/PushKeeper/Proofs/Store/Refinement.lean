import PushKeeper.Proofs.Run
import PushKeeper.Proofs.Store.Opening

namespace PushKeeper.Store

/-- What can be asked of a store. -/
inductive Op
  | get (key : String)
  | put (key value : String)
  | remove (key : String)

namespace Op

section

variable {σ : Type} [KeyValueStore σ]

def perform : Op → σ → Except Failure (Option String) × σ
  | get key, s => (KeyValueStore.get key s, s)
  | put key value, s => (KeyValueStore.put key value s).map (.map fun _ => none) id
  | remove key, s => (KeyValueStore.remove key s).map (.map fun _ => none) id

def step (op : Op) (s : σ) : σ := (op.perform s).2

def after (s : σ) (ops : List Op) : σ := Run.after step s ops

def grant (op : Op) (s : σ) : List Op := if (op.perform s).1.isOk then [op] else []

def granted (s : σ) (ops : List Op) : List Op := Run.notes step grant s ops

theorem after_concat (s : σ) (ops : List Op) (op : Op) :
    after s (ops ++ [op]) = step op (after s ops) := by
  simp [after]

theorem granted_concat (s : σ) (ops : List Op) (op : Op) :
    granted s (ops ++ [op]) = granted s ops ++ op.grant (after s ops) := by
  simp [granted, after]

variable [Honest σ]

theorem entries_step_ok {op : Op} {s : σ} {answer : Option String} (h : (op.perform s).1 = .ok answer) :
    Honest.entries (op.step s) = op.step (Honest.entries s) := by
  cases op with
  | get key => rfl
  | put key value =>
    refine Honest.put_ok ?_
    cases hp : (KeyValueStore.put key value s).1 with
    | error cause => simp [perform, hp, Except.map] at h
    | ok u => rfl
  | remove key =>
    refine Honest.remove_ok ?_
    cases hr : (KeyValueStore.remove key s).1 with
    | error cause => simp [perform, hr, Except.map] at h
    | ok u => rfl

theorem entries_step_error {op : Op} {s : σ} {cause : Failure} (h : (op.perform s).1 = .error cause) :
    Honest.entries (op.step s) = Honest.entries s := by
  cases op with
  | get key => rfl
  | put key value =>
    cases hp : (KeyValueStore.put key value s).1 with
    | error cause => exact Honest.put_error hp
    | ok u => simp [perform, hp, Except.map] at h
  | remove key =>
    cases hr : (KeyValueStore.remove key s).1 with
    | error cause => exact Honest.remove_error hr
    | ok u => simp [perform, hr, Except.map] at h

theorem entries_after (s : σ) (ops : List Op) :
    Honest.entries (after s ops) = after (Honest.entries s) (granted s ops) := by
  induction ops using List.reverseRecOn with
  | nil => rfl
  | append_singleton ops op ih =>
    rw [after_concat, granted_concat, grant]
    -- The store in memory is not even asked for what has failed.
    cases h : (op.perform (after s ops)).1 with
    | error cause =>
      rw [entries_step_error h, ih]
      simp [Except.isOk, Except.toBool]
    | ok answer =>
      rw [entries_step_ok h, ih]
      simp [Except.isOk, Except.toBool, after_concat]

end

end Op

namespace FileStore

variable {δ : Type} [Device δ] [Filing δ]

def Kept (path : String) (s : FileStore × δ) : Prop :=
  s.1.path = path ∧ contents path (Filing.file path s.2) = .ok s.1.entries

variable {path : String} {s : FileStore × δ}

theorem Kept.update {key : String} {change : Entries → Entries} (h : Kept path s)
    (hc : ∀ k, k ≠ key → (change s.1.entries).get? k = s.1.entries.get? k) :
    Kept path (FileStore.update key change s).2 := by
  obtain ⟨store, d⟩ := s
  obtain ⟨rfl, hfile⟩ := h
  obtain ⟨d', f, hp, hd⟩ | ⟨d', hp, hd⟩ := file_persist store.path (change store.entries) d
  · simp only [FileStore.update, hp]
    refine ⟨rfl, ?_⟩
    rw [restore_of_eq hc, hd]
    exact hfile
  · simp only [FileStore.update, hp]
    refine ⟨rfl, ?_⟩
    rw [hd]
    exact contents_render store.path (change store.entries)

theorem Kept.step (h : Kept path s) (op : Op) : Kept path (op.step s) := by
  cases op with
  | get key => exact h
  | put key value =>
    change Kept path (FileStore.update key (·.insert key value) s).2
    exact h.update fun k hk => by simp [hk]
  | remove key =>
    by_cases hn : (s.1.entries.get? key).isNone
    · simpa [Op.step, Op.perform, KeyValueStore.remove, hn] using h
    · simpa only [Op.step, Op.perform, KeyValueStore.remove, if_neg hn, Prod.map, id] using
        h.update fun k hk => by simp [hk]

theorem Kept.after (h : Kept path s) (ops : List Op) : Kept path (Op.after s ops) :=
  Run.after_keeps h fun op _ _ ht => ht.step op

theorem kept_of_open {disk disk' : Disk} {store : FileStore} {d : δ}
    (h : (FileStore.open path).on disk = (.ok store, disk'))
    (hd : Filing.file path d = Filing.file path disk') : Kept path (store, d) := by
  obtain ⟨hpath, -, hload⟩ := exists_of_open h
  exact ⟨hpath, by rw [hd, ← load_eq, hload]⟩

/-- Whatever the device refuses, a store that has been opened behaves as one in memory to which exactly the
operations were applied that succeeded. An operation that fails changes nothing, and after each operation
the file, which holds nothing as long as it is not there, reads back as what the store holds. -/
theorem refines_memory {disk disk' : Disk} {store : FileStore} {d : δ}
    (h : (FileStore.open path).on disk = (.ok store, disk'))
    (hd : Filing.file path d = Filing.file path disk') (ops : List Op) :
    let s := Op.after (store, d) ops
    let memory := Op.after store.entries (Op.granted (store, d) ops)
    (∀ (op : Op) cause, (op.perform s).1 = .error cause → (op.step s).1.entries = s.1.entries) ∧
      s.1.entries = memory ∧
      (∀ key, KeyValueStore.get key s = KeyValueStore.get key memory) ∧
      contents path (Filing.file path s.2) = .ok s.1.entries := by
  intro s memory
  have hmemory : s.1.entries = memory := Op.entries_after (store, d) ops
  refine ⟨fun op cause hop => Op.entries_step_error hop, hmemory, fun key => ?_, ?_⟩
  · rw [← hmemory]
    rfl
  · exact ((kept_of_open h hd).after ops).2

/-- The disk is full while a value is put, and when a key is removed; in between a file cannot be moved into
place. What succeeds is kept: two values, one of them put over another that failed. -/
theorem refines_memory_of_full_disk :
    let store : FileStore := ⟨"state.json", .empty, 0⟩
    let disk := ((FileStore.open "state.json").on ⟨.empty, []⟩).2
    let plan : List Verdict := [.failed .noSpace (some 3), .done, .done, .done, .failed .busy none,
      .failed .noSpace none]
    let d : FaultyDisk := ⟨disk, plan⟩
    let ops : List Op := [.put "a" "1", .put "a" "2", .put "a" "3", .remove "a", .remove "c", .put "b" "\n"]
    (FileStore.open "state.json").on ⟨.empty, []⟩ = (.ok store, disk) ∧
      Filing.file "state.json" d = Filing.file "state.json" disk ∧
      contents "state.json" (Filing.file "state.json" (Op.after (store, d) ops).2) =
        .ok (.ofList [("a", "2"), ("b", "\n")]) := by
  intro store disk plan d ops
  have hopen : (FileStore.open "state.json").on ⟨.empty, []⟩ = (.ok store, disk) :=
    on_open_of_toOption (by decide +kernel)
  have hd : Filing.file "state.json" d = Filing.file "state.json" disk := FaultyDisk.file_eq _ _
  have hentries : (Op.after (store, d) ops).1.entries = .ofList [("a", "2"), ("b", "\n")] := by
    decide +kernel
  obtain ⟨-, -, -, hfile⟩ := refines_memory hopen hd ops
  rw [hentries] at hfile
  exact ⟨hopen, hd, hfile⟩

end FileStore

end PushKeeper.Store
