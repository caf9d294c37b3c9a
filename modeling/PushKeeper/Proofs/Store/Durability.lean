import PushKeeper.Proofs.Store.Refinement

namespace PushKeeper.Store

open Files (sidecar)

namespace FileStore

theorem device_step {δ : Type} [Device δ] (op : Op) (s : FileStore × δ) :
    (op.step s).2 = s.2 ∨ ∃ e, (op.step s).2 = (persist s.1.path e s.2).2 := by
  have hupdate : ∀ key (change : Entries → Entries),
      (update key change s).2.2 = (persist s.1.path (change s.1.entries) s.2).2 := by
    intro key change
    obtain ⟨store, d⟩ := s
    rcases hp : persist store.path (change store.entries) d with ⟨_ | _, d'⟩ <;> simp only [update, hp]
  cases op with
  | get key => exact .inl rfl
  | put key value => exact .inr ⟨_, hupdate key (·.insert key value)⟩
  | remove key =>
    by_cases hn : (s.1.entries.get? key).isNone
    · left
      simp [Op.step, Op.perform, KeyValueStore.remove, hn]
    · right
      refine ⟨s.1.entries.erase key, ?_⟩
      simpa only [Op.step, Op.perform, KeyValueStore.remove, if_neg hn, Prod.map, id] using
        hupdate key (·.erase key)

variable {path : String} {lock : Nat}

theorem Standing.device_write {d : Disk} (h : Standing path lock d.tree) (bytes : ByteArray) :
    Standing path lock (Device.write (sidecar path "tmp") bytes d).2.tree := by
  cases hw : (Device.write (sidecar path "tmp") bytes d).1 with
  | error cause => rwa [Disk.write_error hw]
  | ok u =>
    obtain ⟨tree, ht, hd⟩ := Disk.write_ok hw
    rw [hd]
    exact h.write ht

theorem Standing.device_rename {d : Disk} (h : Standing path lock d.tree) {bytes : ByteArray}
    (hs : Filing.file (sidecar path "tmp") d = .ok (some bytes)) :
    Standing path lock (Device.rename (sidecar path "tmp") path d).2.tree := by
  cases hr : (Device.rename (sidecar path "tmp") path d).1 with
  | error cause => rwa [Disk.rename_error hr]
  | ok u =>
    obtain ⟨p, id, hp⟩ := Disk.exists_of_file hs
    obtain ⟨tree, ht, hd⟩ := Disk.rename_ok hr
    rw [hd]
    exact h.rename hp ht

section

variable {d : FaultyDisk}

theorem Standing.faulty_write (h : Standing path lock d.disk.tree) (bytes : ByteArray) :
    Standing path lock (Device.write (sidecar path "tmp") bytes d).2.disk.tree := by
  obtain ⟨-, hd⟩ | ⟨cause, written, -, hd⟩ := d.write_cases (sidecar path "tmp") bytes <;> rw [hd]
  · exact h.device_write bytes
  · cases written with
    | none => exact h
    | some n => exact h.device_write _

theorem Standing.faulty_rename (h : Standing path lock d.disk.tree) {bytes : ByteArray}
    (hs : Filing.file (sidecar path "tmp") d = .ok (some bytes)) :
    Standing path lock (Device.rename (sidecar path "tmp") path d).2.disk.tree := by
  obtain ⟨-, hd⟩ | ⟨cause, -, hd⟩ := d.rename_cases (sidecar path "tmp") path <;> rw [hd]
  · exact h.device_rename hs
  · exact h

theorem Standing.persist (h : Standing path lock d.disk.tree) (e : Entries) :
    Standing path lock (FileStore.persist path e d).2.disk.tree := by
  have hwritten := h.faulty_write e.render.toUTF8
  obtain ⟨cause, f, -, hp⟩ | ⟨hw, hmoved⟩ := persist_cases path e d
  · rwa [hp]
  · have hrenamed := hwritten.faulty_rename (Filing.file_of_write hw)
    obtain ⟨cause, f, -, hp⟩ | ⟨-, hp⟩ := hmoved <;> rwa [hp]

end

theorem Standing.step {s : FileStore × FaultyDisk} (hpath : s.1.path = path)
    (h : Standing path lock s.2.disk.tree) (op : Op) : Standing path lock (op.step s).2.disk.tree := by
  obtain hs | ⟨e, hs⟩ := device_step op s
  · rwa [hs]
  · rw [hs, hpath]
    exact h.persist e

structure Reopens (path : String) (lock : Nat) (s : FileStore × FaultyDisk) : Prop where
  standing : Standing path lock s.2.disk.tree
  kept : Kept path s

variable {s : FileStore × FaultyDisk}

theorem Reopens.step (h : Reopens path lock s) (op : Op) : Reopens path lock (op.step s) :=
  ⟨h.standing.step h.kept.1 op, h.kept.step op⟩

theorem Reopens.after (h : Reopens path lock s) (ops : List Op) : Reopens path lock (Op.after s ops) :=
  Run.after_keeps h fun op _ _ ht => ht.step op

theorem Reopens.exists_open (h : Reopens path lock s) :
    ∃ reopened d, (FileStore.open path).on (s.2.disk.unlock lock) = (.ok reopened, d) ∧
      reopened.entries = s.1.entries := by
  have hload : load (s.2.disk.unlock lock).tree path = .ok s.1.entries :=
    (load_eq path s.2.disk).trans h.kept.2
  have hstanding : Standing path lock (s.2.disk.unlock lock).tree := h.standing
  exact ⟨_, _, hstanding.open_eq (by simp [Disk.unlock]) hload, rfl⟩

theorem reopens_of_open {disk disk' : Disk} {store : FileStore}
    (h : (FileStore.open path).on disk = (.ok store, disk')) (plan : List Verdict) :
    Reopens path store.lock (store, ⟨disk', plan⟩) :=
  ⟨(exists_of_open h).2.1, kept_of_open h (FaultyDisk.file_eq path ⟨disk', plan⟩)⟩

/-- A state file that is closed opens again with what its store held, and every text in it reads back as it
was. If the process ends in the course of an operation, the file opens with the entries from before the
operation or from after it. -/
theorem survives {disk disk' : Disk} {store : FileStore}
    (h : (FileStore.open path).on disk = (.ok store, disk')) (plan : List Verdict) (ops : List Op)
    (op : Op) :
    let s := Op.after (store, (⟨disk', plan⟩ : FaultyDisk)) ops
    (∀ e : Entries, Entries.parse e.render = .ok e) ∧
      (∃ reopened d, (FileStore.open path).on (s.2.disk.unlock store.lock) = (.ok reopened, d) ∧
        reopened.entries = s.1.entries) ∧
      ∃ reopened d,
        (FileStore.open path).on ((op.step s).2.disk.unlock store.lock) = (.ok reopened, d) ∧
          (reopened.entries = s.1.entries ∨ reopened.entries = op.step s.1.entries) := by
  intro s
  have hs : Reopens path store.lock s := (reopens_of_open h plan).after ops
  refine ⟨Entries.parse_render, hs.exists_open, ?_⟩
  obtain ⟨reopened, d, hopen, he⟩ := (hs.step op).exists_open
  refine ⟨reopened, d, hopen, ?_⟩
  rw [he]
  cases hop : (op.perform s).1 with
  | error cause => exact .inl (Op.entries_step_error hop)
  | ok answer => exact .inr (Op.entries_step_ok hop)

/-- The process ends after the first five bytes beside a state file, where something else had been lying
around. The value that was to be put is not found, and the one from before is. -/
theorem survives_torn_write :
    let old : Entries := .ofList [("\x01\"", "")]
    let tree : Files.Tree :=
      ⟨[(["s.tmp"], .file 1 "?".toUTF8), (["s"], .file 0 old.render.toUTF8)], 2, [], []⟩
    let store : FileStore := ⟨"s", old, 2⟩
    let disk := ((FileStore.open "s").on ⟨tree, []⟩).2
    let s : FileStore × FaultyDisk := (store, ⟨disk, [.stopped (some 5)]⟩)
    let left := ((Op.put "\\" "𝄞").step s).2.disk.unlock 2
    (FileStore.open "s").on ⟨tree, []⟩ = (.ok store, disk) ∧
      ∃ reopened d, (FileStore.open "s").on left = (.ok reopened, d) ∧ reopened.entries = old := by
  intro old tree store disk s left
  have hopen : (FileStore.open "s").on ⟨tree, []⟩ = (.ok store, disk) :=
    on_open_of_toOption (by decide +kernel)
  obtain ⟨-, -, reopened, d, hr, -⟩ := survives hopen [.stopped (some 5)] [] (.put "\\" "𝄞")
  have hleft : (FileStore.open "s").on left = (.ok reopened, d) := hr
  have hold : ((FileStore.open "s").on left).1.toOption.map (·.entries) = some old := by decide +kernel
  rw [hleft] at hold
  exact ⟨hopen, reopened, d, hleft, Option.some.inj hold⟩

end FileStore

end PushKeeper.Store
