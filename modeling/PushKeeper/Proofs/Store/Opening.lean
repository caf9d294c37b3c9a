import PushKeeper.Proofs.Store.Filing

namespace PushKeeper.Store

open Files (isSuffix_lock isSuffix_tmp sidecar)

namespace FileStore

structure Standing (path : String) (lock : Nat) (tree : Files.Tree) : Prop where
  directory {dir : String} :
    (Files.parent? path).filter (· ≠ "") = some dir → tree.isDirectory dir = true
  lockFile : ∃ p bytes, tree.locate (sidecar path "lock") = .ok (.found p (.file lock bytes))

variable {path : String} {lock : Nat} {tree tree' : Files.Tree}

theorem directory_of_prepare {d made : Disk} (h : prepare path d = (.ok (), made)) {dir : String}
    (hdir : (Files.parent? path).filter (· ≠ "") = some dir) : made.tree.isDirectory dir = true := by
  have hne : dir ≠ "" := by simpa using (Option.filter_eq_some_iff.1 hdir).2
  rw [prepare, hdir] at h
  simp only at h
  split at h
  next tree hmade =>
    cases h
    exact Files.Tree.isDirectory_of_layDirectories hne hmade
  next => cases h

theorem Standing.prepare_eq {d : Disk} (h : Standing path lock d.tree) : prepare path d = (.ok (), d) := by
  unfold prepare
  split
  next => rfl
  next dir hdir => rw [Files.Tree.layDirectories_eq (h.directory hdir)]

theorem Standing.openFile_eq (h : Standing path lock tree) :
    ∃ p bytes, tree.openFile (sidecar path "lock") = .ok (p, lock, bytes, tree) := by
  obtain ⟨p, bytes, hl⟩ := h.lockFile
  exact ⟨p, bytes, by rw [Files.Tree.openFile, hl]; rfl⟩

theorem on_open (path : String) (d : Disk) : (FileStore.open path).on d =
    match prepare path d with
    | (.error e, made) => (.error e, made)
    | (.ok (), made) =>
      match made.tree.openFile (sidecar path "lock") with
      | .error cause => (.error (.store (.openLock (sidecar path "lock") cause)), made)
      | .ok (_, lock, _, tree) =>
        if lock ∈ made.locks then (.error (.store (.inUse path)), { made with tree })
        else
          match load tree path with
          | .error e => (.error e, { made with tree })
          | .ok entries => (.ok ⟨path, entries, lock⟩, ⟨tree, lock :: made.locks⟩) := by
  rcases hp : prepare path d with ⟨e | u, made⟩
  · simp [FileStore.open, on_bind, hp]
  rcases ho : made.tree.openFile (sidecar path "lock") with cause | ⟨p, lock, bytes, tree⟩
  · simp [FileStore.open, on_bind, hp, ho]
  by_cases hl : lock ∈ made.locks
  · simp [FileStore.open, on_bind, hp, ho, hl]
  · rcases he : load tree path with e | entries <;> simp [FileStore.open, on_bind, on_map, hp, ho, hl, he]

theorem on_open_of_toOption {d : Disk} {store : FileStore}
    (h : ((FileStore.open path).on d).1.toOption = some store) :
    (FileStore.open path).on d = (.ok store, ((FileStore.open path).on d).2) := by
  rcases hr : (FileStore.open path).on d with ⟨_ | opened, d'⟩ <;> rw [hr] at h
  · cases h
  · obtain rfl : opened = store := Option.some.inj h
    rfl

theorem Standing.open_eq {d : Disk} (h : Standing path lock d.tree) (hl : lock ∉ d.locks) {e : Entries}
    (hload : load d.tree path = .ok e) :
    (FileStore.open path).on d = (.ok ⟨path, e, lock⟩, { d with locks := lock :: d.locks }) := by
  obtain ⟨p, bytes, ho⟩ := h.openFile_eq
  simp only [on_open, h.prepare_eq, ho, if_neg hl, hload]

theorem exists_of_open {disk disk' : Disk} {store : FileStore}
    (h : (FileStore.open path).on disk = (.ok store, disk')) :
    store.path = path ∧ Standing path store.lock disk'.tree ∧
      load disk'.tree path = .ok store.entries := by
  rw [on_open] at h
  split at h
  · cases h
  next made hp =>
  split at h
  · cases h
  next p lock bytes tree ho =>
  split at h
  · cases h
  split at h
  · cases h
  next e he =>
  cases h
  refine ⟨rfl, ⟨fun hdir => ?_, p, bytes, Files.Tree.locate_of_openFile ho⟩, he⟩
  exact (Files.Tree.keepsDirectories_of_openFile ho).isDirectory_eq (directory_of_prepare hp hdir)

theorem Standing.write (h : Standing path lock tree) {bytes : ByteArray}
    (hw : tree.write (sidecar path "tmp") bytes = .ok tree') : Standing path lock tree' := by
  obtain ⟨p, b, hl⟩ := h.lockFile
  refine ⟨fun hdir => ?_, p, b, ?_⟩
  · exact (Files.Tree.keepsDirectories_of_write hw).isDirectory_eq (h.directory hdir)
  · exact Files.Tree.locate_sidecar_of_write isSuffix_lock isSuffix_tmp (by decide) hl hw

theorem Standing.rename (h : Standing path lock tree) {p : Files.Place} {id : Nat} {bytes : ByteArray}
    (hp : tree.locate (sidecar path "tmp") = .ok (.found p (.file id bytes)))
    (hr : tree.rename (sidecar path "tmp") path = .ok tree') : Standing path lock tree' := by
  obtain ⟨q, b, hl⟩ := h.lockFile
  refine ⟨fun hdir => ?_, q, b, ?_⟩
  · exact (Files.Tree.keepsDirectories_of_rename hp hr).isDirectory_eq (h.directory hdir)
  · exact Files.Tree.locate_sidecar_of_rename isSuffix_lock isSuffix_tmp (by decide) hl hp hr

end FileStore

end PushKeeper.Store
