import PushKeeper.Proofs.Store.Creation

namespace PushKeeper.Store

open Files (Named Tree isSuffix_lock sidecar)

namespace FileStore

/-- Two paths are for one state file. The empty path is for none that another path is for. -/
def SameFile (tree : Tree) (path other : String) : Prop :=
  path = other ∨ path ≠ "" ∧ other ≠ "" ∧ tree.place path = tree.place other

instance (tree : Tree) (path other : String) : Decidable (SameFile tree path other) :=
  inferInstanceAs (Decidable (_ ∨ _))

/-- Two paths are for one state file exactly if their stores have one lock file. -/
theorem sameFile_iff {tree : Tree} {path other suffix : String} (hs : Files.IsSuffix suffix)
    (hp : path = "" ∨ Named path) (ho : other = "" ∨ Named other) :
    SameFile tree path other ↔ tree.place (sidecar path suffix) = tree.place (sidecar other suffix) := by
  constructor
  · rintro (rfl | ⟨hpath, hother, hplace⟩)
    · rfl
    · rw [Tree.place_of_named (hp.resolve_left hpath), Tree.place_of_named (ho.resolve_left hother)] at hplace
      exact (Tree.place_sidecar_eq_iff hs).2 (by simpa using hplace)
  · intro h
    obtain ⟨hhome, hlast⟩ := (Tree.place_sidecar_eq_iff hs).1 h
    have hnamed : Named path ↔ Named other := by rw [Named, Named, hlast]
    by_cases hn : Named path
    · refine .inr ⟨?_, ?_, ?_⟩
      · rintro rfl
        exact absurd hn (by decide)
      · rintro rfl
        exact absurd (hnamed.1 hn) (by decide)
      · rw [Tree.place_of_named hn, Tree.place_of_named (hnamed.1 hn), hhome, hlast]
    · exact .inl ((hp.resolve_right hn).trans (ho.resolve_right (hn ∘ hnamed.2)).symm)

end FileStore

namespace Shelf

open FileStore

variable {s s' : Shelf} {slot other path : String} {a b : FileStore}

@[simp] theorem slot?_close (s : Shelf) (slot other : String) :
    (s.close slot).slot? other = if other = slot then none else s.slot? other :=
  Files.Tree.lookup_filter_ne slot other s.slots

@[simp] theorem tree_close (s : Shelf) (slot : String) : (s.close slot).disk.tree = s.disk.tree := by
  simp only [close]
  cases s.slot? slot with
  | none => rfl
  | some b => cases b <;> rfl

theorem mem_locks_close {id : Nat} : id ∈ (s.close slot).disk.locks ↔
    id ∈ s.disk.locks ∧ ∀ a, s.slot? slot = some (.file a) → id ≠ a.lock := by
  simp only [close]
  cases s.slot? slot with
  | none => simp
  | some b => cases b <;> simp [Backing.close, Disk.unlock]

@[simp] theorem slot?_place (s : Shelf) (slot other : String) (b : Backing) :
    (s.place slot b).slot? other = if other = slot then some b else s.slot? other := by
  rw [place, slot?, Files.Tree.lookup_cons_eq_ite]
  split
  next => rfl
  next h => exact (slot?_close s slot other).trans (if_neg h)

theorem openWith_error {opening : Access Disk Backing} {e : Failure} {disk : Disk} (slot : String)
    (h : opening.on s.disk = (.error e, disk)) :
    s.openWith slot opening = (.error e, { s with disk }) := by
  simp only [openWith, h]

theorem openWith_ok {opening : Access Disk Backing} {b : Backing} {disk : Disk} (slot : String)
    (h : opening.on s.disk = (.ok b, disk)) :
    s.openWith slot opening = (.ok (), { s with disk }.place slot b) := by
  simp only [openWith, h]

theorem openWith_file {disk : Disk} (slot : String) (h : (FileStore.open path).on s.disk = (.ok a, disk)) :
    s.openWith slot (Backing.file <$> FileStore.open path) = (.ok (), { s with disk }.place slot (.file a)) :=
  openWith_ok slot (by rw [on_map, h])

/-- What can come next on a shelf. Everyone else may change the files, but the lock file of a store that is
open stays where it is. -/
inductive Step (s : Shelf) : Shelf → Prop
  | «open» (slot path : String) : Step s (s.openWith slot (Backing.file <$> FileStore.open path)).2
  | memory (slot : String) (e : Entries) : Step s (s.openWith slot (pure (.memory e))).2
  | close (slot : String) : Step s (s.close slot)
  | others (tree : Tree) (ht : tree.Sound)
      (hlocks : ∀ slot a, s.slot? slot = some (.file a) →
        ∃ bytes, tree.node? (tree.place (sidecar a.path "lock")) = some (.file a.lock bytes)) :
      Step s { s with disk := { s.disk with tree } }

/-- What comes to be from a disk on which nothing is locked, and an empty shelf. -/
inductive Reachable : Shelf → Prop
  | start {tree : Tree} (ht : tree.Sound) : Reachable ⟨⟨tree, []⟩, []⟩
  | step {s s' : Shelf} (hs : Reachable s) (h : Step s s') : Reachable s'

/-- The locks are those of the open stores, each of which has its own. -/
structure Held (s : Shelf) : Prop where
  sound : s.disk.tree.Sound
  locked {id : Nat} : id ∈ s.disk.locks ↔ ∃ slot a, s.slot? slot = some (.file a) ∧ a.lock = id
  apart {slot other : String} {a b : FileStore} : s.slot? slot = some (.file a) →
    s.slot? other = some (.file b) → a.lock = b.lock → slot = other
  lockFile {slot : String} {a : FileStore} : s.slot? slot = some (.file a) →
    ∃ bytes, s.disk.tree.node? (s.disk.tree.place (sidecar a.path "lock")) = some (.file a.lock bytes)
  named {slot : String} {a : FileStore} : s.slot? slot = some (.file a) → a.path = "" ∨ Named a.path

namespace Held

theorem start {tree : Tree} (ht : tree.Sound) : Held ⟨⟨tree, []⟩, []⟩ where
  sound := ht
  locked := by simp [slot?]
  apart h := by simp [slot?] at h
  lockFile h := by simp [slot?] at h
  named h := by simp [slot?] at h

theorem close (h : s.Held) (slot : String) : (s.close slot).Held where
  sound := by simpa using h.sound
  locked {id} := by
    rw [mem_locks_close, h.locked]
    constructor
    · rintro ⟨⟨other, a, ha, rfl⟩, hne⟩
      refine ⟨other, a, ?_, rfl⟩
      rw [slot?_close, if_neg, ha]
      rintro rfl
      exact hne a ha rfl
    · rintro ⟨other, a, ha, rfl⟩
      rw [slot?_close] at ha
      split at ha
      · cases ha
      next hother => exact ⟨⟨other, a, ha, rfl⟩, fun b hb hab => hother (h.apart ha hb hab)⟩
  apart {m n a b} ha hb := by
    rw [slot?_close] at ha hb
    split at ha
    · cases ha
    split at hb
    · cases hb
    exact h.apart ha hb
  lockFile {m a} ha := by
    rw [slot?_close] at ha
    split at ha
    · cases ha
    · simpa using h.lockFile ha
  named {m a} ha := by
    rw [slot?_close] at ha
    split at ha
    · cases ha
    · exact h.named ha

theorem congr (h : s.Held) (htree : s'.disk.tree = s.disk.tree)
    (hlocks : ∀ id, id ∈ s'.disk.locks ↔ id ∈ s.disk.locks)
    (hslots : ∀ slot a, s'.slot? slot = some (.file a) ↔ s.slot? slot = some (.file a)) : s'.Held where
  sound := htree ▸ h.sound
  locked {id} := by simp only [hlocks, hslots, h.locked]
  apart ha hb := h.apart ((hslots ..).1 ha) ((hslots ..).1 hb)
  lockFile ha := htree ▸ h.lockFile ((hslots ..).1 ha)
  named ha := h.named ((hslots ..).1 ha)

theorem others (h : s.Held) {tree : Tree} (ht : tree.Sound)
    (hlocks : ∀ slot a, s.slot? slot = some (.file a) →
      ∃ bytes, tree.node? (tree.place (sidecar a.path "lock")) = some (.file a.lock bytes)) :
    Held { s with disk := { s.disk with tree } } where
  sound := ht
  locked := h.locked
  apart := h.apart
  lockFile := hlocks _ _
  named := h.named

theorem memory (h : s.Held) (slot : String) (e : Entries) : (s.place slot (.memory e)).Held := by
  refine (h.close slot).congr rfl (fun _ => Iff.rfl) fun other a => ?_
  rw [slot?_place, slot?_close]
  split <;> simp

theorem file (h : s.Held) (slot : String) {a : FileStore} (hl : a.lock ∉ s.disk.locks)
    (hfile : ∃ bytes,
      s.disk.tree.node? (s.disk.tree.place (sidecar a.path "lock")) = some (.file a.lock bytes))
    (hn : a.path = "" ∨ Named a.path) :
    (({ s with disk := { s.disk with locks := a.lock :: s.disk.locks } } : Shelf).place slot
      (.file a)).Held := by
  have hne : ∀ {other b}, s.slot? other = some (.file b) → b.lock ≠ a.lock := by
    rintro other b hb hab
    exact hl (h.locked.2 ⟨other, b, hb, hab⟩)
  have hslot : ∀ {other b},
      (({ s with disk := { s.disk with locks := a.lock :: s.disk.locks } } : Shelf).place slot
        (.file a)).slot? other = some (.file b) ↔
      other = slot ∧ b = a ∨ other ≠ slot ∧ s.slot? other = some (.file b) := by
    intro other b
    rw [slot?_place]
    split <;> rename_i heq
    · simp [heq, eq_comm]
    · simp [heq, slot?]
  have htree : (({ s with disk := { s.disk with locks := a.lock :: s.disk.locks } } : Shelf).place slot
      (.file a)).disk.tree = s.disk.tree := tree_close _ slot
  refine ⟨htree ▸ h.sound, fun {id} => ?_, fun {m n b c} hb hc hbc => ?_, fun {m b} hb => ?_,
    fun {m b} hb => ?_⟩
  -- the store that may have been there has given its lock back, which is not the one that is taken
  · refine mem_locks_close.trans ?_
    change (id ∈ a.lock :: s.disk.locks ∧ ∀ b, s.slot? slot = some (.file b) → id ≠ b.lock) ↔ _
    simp only [hslot, List.mem_cons, h.locked]
    constructor
    · rintro ⟨rfl | ⟨other, b, hb, rfl⟩, hold⟩
      · exact ⟨slot, a, .inl ⟨rfl, rfl⟩, rfl⟩
      · refine ⟨other, b, .inr ⟨?_, hb⟩, rfl⟩
        rintro rfl
        exact hold b hb rfl
    · rintro ⟨other, b, ⟨rfl, rfl⟩ | ⟨hother, hb⟩, rfl⟩
      · exact ⟨.inl rfl, fun c hc => (hne hc).symm⟩
      · exact ⟨.inr ⟨other, b, hb, rfl⟩, fun c hc hbc => hother (h.apart hb hc hbc)⟩
  · rw [hslot] at hb hc
    obtain ⟨rfl, rfl⟩ | ⟨-, hb⟩ := hb <;> obtain ⟨rfl, rfl⟩ | ⟨-, hc⟩ := hc
    · rfl
    · exact absurd hbc.symm (hne hc)
    · exact absurd hbc (hne hb)
    · exact h.apart hb hc hbc
  · rw [htree]
    obtain ⟨rfl, rfl⟩ | ⟨-, hb⟩ := hslot.1 hb
    · exact hfile
    · exact h.lockFile hb
  · obtain ⟨rfl, rfl⟩ | ⟨-, hb⟩ := hslot.1 hb
    · exact hn
    · exact h.named hb

theorem «open» (h : s.Held) (slot path : String) :
    (s.openWith slot (Backing.file <$> FileStore.open path)).2.Held := by
  have hattempt := opening path s.disk
  have hfiles : Held { s with disk := { s.disk with tree := ((FileStore.open path).on s.disk).2.tree } } := by
    obtain ⟨hhere, hkept⟩ := hattempt.kept
    refine h.others (hattempt.sound h.sound) fun slot a ha => ?_
    rw [Tree.place_congr hhere]
    obtain ⟨bytes, hlock⟩ := h.lockFile ha
    exact ⟨bytes, hkept hlock⟩
  rcases hr : (FileStore.open path).on s.disk with ⟨e | store, disk⟩ <;> rw [hr] at hfiles hattempt
  · rw [openWith_error slot (show Access.on _ s.disk = (.error e, disk) by rw [on_map, hr])]
    exact hfiles.congr rfl (fun id => by rw [hattempt.locks_eq]) fun _ _ => Iff.rfl
  · rw [openWith_file slot hr]
    obtain ⟨hpath, hl, hlocks, hgets, hfit⟩ := taken_of_open h.sound hr
    obtain ⟨tree, locks⟩ := disk
    obtain rfl : locks = store.lock :: s.disk.locks := hlocks
    refine hfiles.file slot hl ?_ ?_
    · exact hpath ▸ hgets.node?_place
    · exact hpath ▸ hgets.named h.sound hfit

theorem step (h : s.Held) (hs : s.Step s') : s'.Held := by
  cases hs with
  | «open» slot path => exact h.open slot path
  | memory slot e => exact h.memory slot e
  | close slot => exact h.close slot
  | others tree ht hlocks => exact h.others ht hlocks

end Held

theorem Reachable.held (h : s.Reachable) : s.Held := by
  induction h with
  | start ht => exact .start ht
  | step _ hstep ih => exact ih.step hstep

theorem Held.eq_of_sameFile (h : s.Held) (ha : s.slot? slot = some (.file a))
    (hb : s.slot? other = some (.file b)) (hab : SameFile s.disk.tree a.path b.path) : slot = other := by
  obtain ⟨_, hlocka⟩ := h.lockFile ha
  obtain ⟨_, hlockb⟩ := h.lockFile hb
  rw [(sameFile_iff isSuffix_lock (h.named ha) (h.named hb)).1 hab, hlockb] at hlocka
  exact h.apart ha hb (by simp_all)

theorem Held.free_iff (h : s.Held) {lock : Nat} {tree : Tree} (hgets : GetsTo path s.disk lock tree)
    (hn : path = "" ∨ Named path) : lock ∉ s.disk.locks ↔
      ∀ slot a, s.slot? slot = some (.file a) → ¬ SameFile s.disk.tree a.path path := by
  obtain ⟨hhere, hkept⟩ := hgets.kept
  obtain ⟨_, hlock⟩ := hgets.node?_place
  rw [Tree.place_congr hhere] at hlock
  constructor
  · intro hfree slot a ha hsame
    obtain ⟨_, hlocka⟩ := h.lockFile ha
    rw [(sameFile_iff isSuffix_lock (h.named ha) hn).1 hsame] at hlocka
    obtain ⟨rfl, -⟩ : lock = a.lock ∧ _ := by simpa [hlock] using hkept hlocka
    exact hfree (h.locked.2 ⟨slot, a, ha, rfl⟩)
  · intro hnobody hheld
    obtain ⟨slot, a, ha, rfl⟩ := h.locked.1 hheld
    obtain ⟨_, hlocka⟩ := h.lockFile ha
    have hplace := (hgets.sound h.sound).unique (Tree.isLock_place _ _) (hkept hlocka) hlock
    exact hnobody slot a ha ((sameFile_iff isSuffix_lock (h.named ha) hn).2 hplace)

/-- On every shelf that can come to be, a state file is held by one store at most; it is one name in one directory,
whatever other names its bytes have. Whatever an attempt to open does, it changes no file and makes none but the
lock file; one that fails takes no lock and touches no open store. It succeeds exactly when the directory and the
lock file can be made, no open store is for that file, and once the directory has been made there is nothing in the
file, or entries. -/
theorem state_file_is_exclusive (hs : s.Reachable) :
    (∀ slot other a b, s.slot? slot = some (.file a) → s.slot? other = some (.file b) →
      SameFile s.disk.tree a.path b.path → slot = other) ∧
    (∀ path,
      ((FileStore.open path).on s.disk).2.tree.bytes? (s.disk.tree.place path) =
        s.disk.tree.bytes? (s.disk.tree.place path) ∧
      ∀ p, ((FileStore.open path).on s.disk).2.tree.bytes? p = s.disk.tree.bytes? p ∨
        p = s.disk.tree.place (sidecar path "lock") ∧ s.disk.tree.bytes? p = none ∧
          ((FileStore.open path).on s.disk).2.tree.bytes? p = some .empty) ∧
    (∀ path e disk, (FileStore.open path).on s.disk = (.error e, disk) →
      disk.locks = s.disk.locks ∧ ∀ slot,
        s.openWith slot (Backing.file <$> FileStore.open path) = (.error e, ⟨disk, s.slots⟩)) ∧
    ∀ path, (∃ store disk, (FileStore.open path).on s.disk = (.ok store, disk)) ↔
      Creatable s.disk.tree path ∧
        (∀ slot a, s.slot? slot = some (.file a) → ¬ SameFile s.disk.tree a.path path) ∧
        Fit s.disk.tree path := by
  have hheld := hs.held
  refine ⟨fun slot other a b => hheld.eq_of_sameFile,
    fun path => ⟨(opening path s.disk).bytes?_place_eq, (opening path s.disk).bytes?_eq⟩,
    fun path e disk he => ⟨?_, fun slot => openWith_error slot (by rw [on_map, he])⟩, fun path => ?_⟩
  · exact (he ▸ opening path s.disk : Opening path s.disk (.error e, disk)).locks_eq
  · rw [creatable_iff hheld.sound]
    constructor
    · intro hopen
      obtain ⟨store, disk, hr⟩ := hopen
      obtain ⟨-, hl, -, hgets, hfit⟩ := taken_of_open hheld.sound hr
      exact ⟨⟨_, _, hgets⟩, (hheld.free_iff hgets (hgets.named hheld.sound hfit)).1 hl, hfit⟩
    · rintro ⟨⟨lock, tree, hgets⟩, hnobody, hfit⟩
      refine (hgets.exists_open_iff hheld.sound).2 ⟨?_, hfit⟩
      exact (hheld.free_iff hgets (hgets.named hheld.sound hfit)).2 hnobody

/-- A second store is kept away from a file that is spelled in another way, and let in once the first one is
closed. The directory is made by the first one. -/
theorem state_file_is_exclusive_under_other_names :
    let s := (openWith ⟨⟨.empty, []⟩, []⟩ "a" (Backing.file <$> FileStore.open "d/s")).2
    s.Reachable ∧ (s.close "a").Reachable ∧
      (¬ ∃ store disk, (FileStore.open "d/./s").on s.disk = (.ok store, disk)) ∧
      ∃ store disk, (FileStore.open "d/./s").on (s.close "a").disk = (.ok store, disk) := by
  intro s
  have hempty : Tree.Sound .empty := by
    refine ⟨fun {p n} h => ?_, fun {p q id b c} hl h => ?_, fun {p id b} h => ?_⟩ <;>
      cases p <;> simp_all [Tree.node?, Tree.empty]
  have hs : s.Reachable := (Reachable.start hempty).step (.open "a" "d/s")
  have hclosed : (s.close "a").Reachable := hs.step (.close "a")
  have hopen : (FileStore.open "d/s").on ⟨.empty, []⟩ = (.ok ⟨"d/s", .empty, 0⟩,
      ⟨⟨[(["d", "s.lock"], .file 0 .empty), (["d"], .directory)], 1, [], []⟩, [0]⟩) := by decide +kernel
  have hshelf : s = ⟨⟨⟨[(["d", "s.lock"], .file 0 .empty), (["d"], .directory)], 1, [], []⟩, [0]⟩,
      [("a", .file ⟨"d/s", .empty, 0⟩)]⟩ :=
    congrArg Prod.snd (openWith_file (s := ⟨⟨.empty, []⟩, []⟩) "a" hopen)
  obtain ⟨-, -, -, hopens⟩ := state_file_is_exclusive hs
  obtain ⟨-, -, -, hreopens⟩ := state_file_is_exclusive hclosed
  refine ⟨hs, hclosed, fun h => ?_, (hreopens "d/./s").2 ?_⟩
  · refine ((hopens "d/./s").1 h).2.1 "a" ⟨"d/s", .empty, 0⟩ (by rw [hshelf]; rfl) ?_
    rw [hshelf]
    decide +kernel
  · have hslots : (s.close "a").slots = [] := by rw [hshelf]; rfl
    have hnobody {slot : String} {b : Backing} (hb : (s.close "a").slot? slot = some b) : False := by
      simp [slot?, hslots] at hb
    rw [hshelf] at hnobody ⊢
    refine ⟨by decide +kernel, fun slot a ha => (hnobody ha).elim, .inr ⟨by decide +kernel, fun bytes hb => ?_⟩⟩
    cases hb

def linked (name other : String) : Tree :=
  ⟨[([name], .file 0 ⟨#[123, 125]⟩), ([other], .file 0 ⟨#[123, 125]⟩)], 1, [], []⟩

theorem node?_linked {name other : String} {p : Files.Place} {n : Files.Node}
    (h : (linked name other).node? p = some n) :
    p = [] ∧ n = .directory ∨ (p = [name] ∨ p = [other]) ∧ n = .file 0 ⟨#[123, 125]⟩ := by
  simp only [linked, Tree.node?, Tree.lookup_cons_eq_ite] at h
  split at h
  next hp => exact .inl ⟨hp, (Option.some.inj h).symm⟩
  next =>
    split at h
    next hp => exact .inr ⟨.inl hp, (Option.some.inj h).symm⟩
    next =>
      split at h
      next hp => exact .inr ⟨.inr hp, (Option.some.inj h).symm⟩
      next => cases h

theorem sound_linked {name other : String} (hn : name.length < 5) (ho : other.length < 5) :
    (linked name other).Sound := by
  have hlock {name : String} (hshort : name.length < 5) : ¬ Tree.IsLock [name] := by
    rintro ⟨home, stem, hp⟩
    obtain ⟨-, hname⟩ := List.append_inj' (show [] ++ [name] = _ from hp) rfl
    obtain rfl : name = stem ++ "." ++ "lock" := by simpa using hname
    have hdot : ".".length = 1 := by decide
    have hsuffix : "lock".length = 4 := by decide
    rw [String.length_append, String.length_append] at hshort
    omega
  refine ⟨fun {p n} h => ?_, fun {p q id b c} hl hp hq => ?_, fun {p id b} h => ?_⟩
  · obtain ⟨rfl, -⟩ | ⟨rfl | rfl, -⟩ := node?_linked h <;> rfl
  · obtain ⟨-, hn⟩ | ⟨rfl | rfl, -⟩ := node?_linked hp
    · cases hn
    · exact absurd hl (hlock hn)
    · exact absurd hl (hlock ho)
  · obtain ⟨-, hn⟩ | ⟨-, hn⟩ := node?_linked h
    · cases hn
    · cases hn
      exact Nat.one_pos

/-- Two names of one file are held by two stores; two files whose lock files are one keep each other's stores away;
and where a directory has to be made, it can be made where the state file is to be. -/
theorem state_file_is_shared_under_links :
    (∃ both a b p q bytes, Reachable both ∧
      both.slot? "a" = some (.file a) ∧ both.disk.tree.locate a.path = .ok (.found p (.file 0 bytes)) ∧
      both.slot? "b" = some (.file b) ∧ both.disk.tree.locate b.path = .ok (.found q (.file 0 bytes))) ∧
    (let one := (openWith ⟨⟨linked "s.lock" "t.lock", []⟩, []⟩ "a" (Backing.file <$> FileStore.open "s")).2
     Creatable one.disk.tree "t" ∧ Filing.file "t" one.disk = .ok none ∧
       (∀ slot a, one.slot? slot = some (.file a) → ¬ SameFile one.disk.tree a.path "t") ∧
       ((FileStore.open "t").on one.disk).1 = .error (.store (.inUse "t"))) ∧
    let d : Disk := ⟨⟨[], 0, [], []⟩, []⟩
    Creatable d.tree "x/../x" ∧ Filing.file "x/../x" d = .ok none ∧
      ((FileStore.open "x/../x").on d).1 = .error (.io (.files .isDirectory)) := by
  refine ⟨?_, ?_, by decide +kernel, rfl, by decide +kernel⟩
  · have hs : (FileStore.open "s").on ⟨linked "s" "t", []⟩ = (.ok ⟨"s", .empty, 1⟩,
        ⟨⟨(["s.lock"], .file 1 .empty) :: (linked "s" "t").nodes, 2, [], []⟩, [1]⟩) := by decide +kernel
    have ht : (FileStore.open "t").on ⟨⟨(["s.lock"], .file 1 .empty) :: (linked "s" "t").nodes, 2, [], []⟩, [1]⟩ =
        (.ok ⟨"t", .empty, 2⟩, ⟨⟨(["t.lock"], .file 2 .empty) :: (["s.lock"], .file 1 .empty) ::
          (linked "s" "t").nodes, 3, [], []⟩, [2, 1]⟩) := by decide +kernel
    have hsound : (linked "s" "t").Sound := sound_linked (by decide) (by decide)
    have hone := (Reachable.start hsound).step (.open "a" "s")
    rw [openWith_file (s := ⟨⟨linked "s" "t", []⟩, []⟩) "a" hs] at hone
    have hboth := hone.step (.open "b" "t")
    rw [openWith_file "b" ht] at hboth
    exact ⟨_, ⟨"s", .empty, 1⟩, ⟨"t", .empty, 2⟩, ["s"], ["t"], _, hboth, rfl, rfl, rfl, rfl⟩
  · intro one
    have hs : (FileStore.open "s").on ⟨linked "s.lock" "t.lock", []⟩ =
        (.ok ⟨"s", .empty, 0⟩, ⟨linked "s.lock" "t.lock", [0]⟩) := by decide +kernel
    have hone : one = ({ disk := ⟨linked "s.lock" "t.lock", [0]⟩, slots := [] } : Shelf).place "a"
        (.file ⟨"s", .empty, 0⟩) :=
      congrArg Prod.snd (openWith_file (s := ⟨⟨linked "s.lock" "t.lock", []⟩, []⟩) "a" hs)
    have hdisk : one.disk = ⟨linked "s.lock" "t.lock", [0]⟩ := by rw [hone]; rfl
    rw [hdisk]
    refine ⟨by decide +kernel, rfl, fun slot a ha => ?_, by decide +kernel⟩
    rw [hone, slot?_place] at ha
    split at ha
    · obtain rfl : ⟨"s", .empty, 0⟩ = a := by simpa using ha
      decide +kernel
    · cases ha

end Shelf

end PushKeeper.Store
