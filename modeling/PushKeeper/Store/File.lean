import PushKeeper.Store.Access

namespace PushKeeper.Store

class Device (δ : Type) where
  write : String → ByteArray → δ → Except Files.Fault Unit × δ
  rename : String → String → δ → Except Files.Fault Unit × δ

/-- A tree of files with the files that are locked, by identity. -/
structure Disk where
  tree : Files.Tree
  locks : List Nat
  deriving DecidableEq

namespace Disk

def change (d : Disk) (result : Except Files.Fault Files.Tree) : Except Files.Fault Unit × Disk :=
  match result with
  | .ok tree => (.ok (), { d with tree })
  | .error e => (.error e, d)

instance : Device Disk where
  write path bytes d := d.change (d.tree.write path bytes)
  rename source target d := d.change (d.tree.rename source target)

def unlock (d : Disk) (id : Nat) : Disk :=
  { d with locks := d.locks.filter (· ≠ id) }

end Disk

structure FileStore where
  path : String
  entries : Entries
  lock : Nat
  deriving DecidableEq

namespace FileStore

def load (tree : Files.Tree) (path : String) : Except Failure Entries :=
  if tree.has path then
    match tree.readText path with
    | .error cause => .error (.io (.files cause))
    | .ok text =>
      match Entries.parse text with
      | .ok entries => .ok entries
      | .error _ => .error (.corruptState path)
  else .ok .empty

def prepare (path : String) (d : Disk) : Except Failure Unit × Disk :=
  match (Files.parent? path).filter (· ≠ "") with
  | none => (.ok (), d)
  | some dir =>
    match d.tree.layDirectories dir with
    | (.ok (), tree) => (.ok (), { d with tree })
    | (.error cause, tree) => (.error (.store (.createDirectory dir cause)), { d with tree })

/-- Opens a state file: makes its directory and the lock file, takes the lock, reads the file. A
failure after the first steps leaves the directory and the lock file behind, but no lock. -/
def «open» (path : String) : Access Disk FileStore := do
  writing (prepare path)
  let lockPath := Files.sidecar path "lock"
  let (lock, tree) ← reading fun d =>
    match d.tree.openFile lockPath with
    | .ok (_, id, _, tree) => .ok (id, tree)
    | .error cause => .error (.store (.openLock lockPath cause))
  modify ({ · with tree })
  if (← get).locks.contains lock then throw (.store (.inUse path))
  let entries ← reading fun d => load d.tree path
  modify fun d => { d with locks := lock :: d.locks }
  return ⟨path, entries, lock⟩

variable {δ : Type} [Device δ]

def persist (path : String) (entries : Entries) (d : δ) : Except Failure Unit × δ :=
  let temporary := Files.sidecar path "tmp"
  match Device.write temporary entries.render.toUTF8 d with
  | (.error cause, d) => (.error (.store (.writeTemporary temporary cause)), d)
  | (.ok (), d) =>
    match Device.rename temporary path d with
    | (.error cause, d) => (.error (.store (.replace path cause)), d)
    | (.ok (), d) => (.ok (), d)

def restore (entries : Entries) (key : String) (previous : Option String) : Entries :=
  match previous with
  | some value => entries.insert key value
  | none => entries.erase key

/-- Changes what is under a key, in memory and in the file; if the file cannot be written, the
change in memory is taken back. -/
def update (key : String) (change : Entries → Entries) (s : FileStore × δ) :
    Except Failure Unit × (FileStore × δ) :=
  let (store, device) := s
  let changed := change store.entries
  match persist store.path changed device with
  | (.ok (), device) => (.ok (), { store with entries := changed }, device)
  | (.error e, device) =>
    (.error e, { store with entries := restore changed key (store.entries.get? key) }, device)

instance : KeyValueStore (FileStore × δ) where
  get key s := .ok (s.1.entries.get? key)
  put key value s := update key (·.insert key value) s
  remove key s :=
    if (s.1.entries.get? key).isNone then (.ok (), s) else update key (·.erase key) s

end FileStore

inductive Backing
  | memory (entries : Entries)
  | file (store : FileStore)

def memoryPath : String := ":memory:"

structure Mounted where
  backing : Backing
  disk : Disk

namespace Mounted

def change (m : Mounted) (onMemory : Entries → Except Failure Unit × Entries)
    (onFile : FileStore × Disk → Except Failure Unit × (FileStore × Disk)) :
    Except Failure Unit × Mounted :=
  match m.backing with
  | .memory entries =>
    let (r, entries) := onMemory entries
    (r, { m with backing := .memory entries })
  | .file store =>
    let (r, store, disk) := onFile (store, m.disk)
    (r, ⟨.file store, disk⟩)

instance : KeyValueStore Mounted where
  get key m :=
    match m.backing with
    | .memory entries => KeyValueStore.get key entries
    | .file store => KeyValueStore.get key (store, m.disk)
  put key value m := m.change (KeyValueStore.put key value) (KeyValueStore.put key value)
  remove key m := m.change (KeyValueStore.remove key) (KeyValueStore.remove key)

end Mounted

def Backing.open (path : String) : Access Disk Backing := do
  if path = memoryPath then return .memory .empty
  return .file (← FileStore.open path)

def Backing.close (b : Backing) (d : Disk) : Disk :=
  match b with
  | .memory _ => d
  | .file store => d.unlock store.lock

structure Shelf where
  disk : Disk
  slots : List (String × Backing)

namespace Shelf

def slot? (s : Shelf) (name : String) : Option Backing :=
  s.slots.lookup name

def close (s : Shelf) (name : String) : Shelf :=
  { disk := ((s.slot? name).map fun b => b.close s.disk).getD s.disk
    slots := s.slots.filter (·.1 ≠ name) }

def place (s : Shelf) (name : String) (b : Backing) : Shelf :=
  let s := s.close name
  { s with slots := (name, b) :: s.slots }

/-- Opens a store into a slot; a failed attempt leaves the slot as it was. -/
def openWith (s : Shelf) (name : String) (opening : Access Disk Backing) :
    Except Failure Unit × Shelf :=
  match opening.on s.disk with
  | (.ok b, disk) => (.ok (), { s with disk }.place name b)
  | (.error e, disk) => (.error e, { s with disk })

def work {α : Type} (s : Shelf) (name : String) (work : Access Mounted α) :
    Option (Except Failure α × Shelf) :=
  (s.slot? name).map fun backing =>
    let (r, m) := work.on ⟨backing, s.disk⟩
    (r, { disk := m.disk
          slots := s.slots.map fun (n, b) => if n = name then (n, m.backing) else (n, b) })

end Shelf

end PushKeeper.Store
