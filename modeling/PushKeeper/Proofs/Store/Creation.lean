import PushKeeper.Proofs.Files.Ways
import PushKeeper.Proofs.Store.Corruption

namespace PushKeeper.Store.FileStore

open Files (Named Place Tree above isSuffix_lock lastName segments sidecar)

variable {path : String} {d d' made : Disk} {q : Place} {lock : Nat} {tree : Tree}

theorem grown_prepare (path : String) (d : Disk) :
    d.tree.Grown (prepare path d).2.tree ∧ (prepare path d).2.locks = d.locks := by
  unfold prepare
  split
  next => exact ⟨.refl _, rfl⟩
  next dir _ =>
    have hgrown := Tree.grown_layDirectories d.tree dir
    split <;> rename_i hlaid <;> rw [hlaid] at hgrown <;> exact ⟨hgrown, rfl⟩

/-- The ways in which an attempt to open comes out. -/
inductive Opening (path : String) (d : Disk) : Except Failure FileStore × Disk → Prop
  | noDirectory {e made} (hp : prepare path d = (.error e, made)) : Opening path d (.error e, made)
  | noLockFile {made cause} (hp : prepare path d = (.ok (), made))
      (ho : made.tree.openFile (sidecar path "lock") = .error cause) :
      Opening path d (.error (.store (.openLock (sidecar path "lock") cause)), made)
  | inUse {made p lock bytes tree} (hp : prepare path d = (.ok (), made))
      (ho : made.tree.openFile (sidecar path "lock") = .ok (p, lock, bytes, tree))
      (hl : lock ∈ made.locks) : Opening path d (.error (.store (.inUse path)), { made with tree })
  | unreadable {made p lock bytes tree e} (hp : prepare path d = (.ok (), made))
      (ho : made.tree.openFile (sidecar path "lock") = .ok (p, lock, bytes, tree))
      (hl : lock ∉ made.locks) (he : load tree path = .error e) :
      Opening path d (.error e, { made with tree })
  | opened {made p lock bytes tree entries} (hp : prepare path d = (.ok (), made))
      (ho : made.tree.openFile (sidecar path "lock") = .ok (p, lock, bytes, tree))
      (hl : lock ∉ made.locks) (he : load tree path = .ok entries) :
      Opening path d (.ok ⟨path, entries, lock⟩, ⟨tree, lock :: made.locks⟩)

theorem opening (path : String) (d : Disk) : Opening path d ((FileStore.open path).on d) := by
  rw [on_open]
  rcases hp : prepare path d with ⟨e | u, made⟩
  · exact .noDirectory hp
  rcases ho : made.tree.openFile (sidecar path "lock") with cause | ⟨p, lock, bytes, tree⟩
  · simpa only [ho] using .noLockFile hp ho
  by_cases hl : lock ∈ made.locks
  · simpa only [ho, if_pos hl] using .inUse hp ho hl
  rcases he : load tree path with e | entries
  · simpa only [ho, if_neg hl, he] using .unreadable hp ho hl he
  · simpa only [ho, if_neg hl, he] using .opened hp ho hl he

namespace Opening

variable {r : Except Failure FileStore × Disk} {e : Failure} {store : FileStore}

theorem exists_left (h : Opening path d r) : ∃ made : Tree, d.tree.Grown made ∧ (r.2.tree = made ∨
    ∃ p id bytes, made.openFile (sidecar path "lock") = .ok (p, id, bytes, r.2.tree)) := by
  obtain ⟨hgrown, -⟩ := grown_prepare path d
  cases h with
  | noDirectory hp | noLockFile hp =>
    rw [hp] at hgrown
    exact ⟨_, hgrown, .inl rfl⟩
  | inUse hp ho | unreadable hp ho | opened hp ho =>
    rw [hp] at hgrown
    exact ⟨_, hgrown, .inr ⟨_, _, _, ho⟩⟩

theorem bytes?_eq (h : Opening path d r) (p : Place) : r.2.tree.bytes? p = d.tree.bytes? p ∨
    p = d.tree.place (sidecar path "lock") ∧ d.tree.bytes? p = none ∧
      r.2.tree.bytes? p = some .empty := by
  obtain ⟨made, hgrown, hleft | ⟨q, id, bytes, ho⟩⟩ := h.exists_left
  · exact .inl (hleft ▸ hgrown.bytes?_eq p)
  obtain ⟨hplace, ⟨hsame, -⟩ | ⟨hnone, -, -, -, -, -, hnode⟩⟩ := Tree.openFile_cases ho
  · exact .inl (hsame ▸ hgrown.bytes?_eq p)
  by_cases hp : p = q
  · refine .inr ⟨?_, ?_, ?_⟩
    · rw [hp, ← hplace, Tree.place_congr hgrown.here_eq]
    · rw [← hgrown.bytes?_eq, Tree.bytes?, hp, hnone]
    · rw [Tree.bytes?, hnode, if_pos hp]
  · exact .inl ((Tree.bytes?_congr (by rw [hnode, if_neg hp])).trans (hgrown.bytes?_eq p))

theorem bytes?_place_eq (h : Opening path d r) :
    r.2.tree.bytes? (d.tree.place path) = d.tree.bytes? (d.tree.place path) :=
  (h.bytes?_eq _).resolve_right fun hp => Tree.place_ne_sidecar d.tree path isSuffix_lock hp.1

theorem kept (h : Opening path d r) : r.2.tree.here = d.tree.here ∧
    ∀ {p n}, d.tree.node? p = some n → r.2.tree.node? p = some n := by
  obtain ⟨made, hgrown, hleft | ⟨q, id, bytes, ho⟩⟩ := h.exists_left
  · exact ⟨hleft ▸ hgrown.here_eq, hleft ▸ hgrown.kept⟩
  obtain ⟨-, ⟨hsame, -⟩ | ⟨hnone, -, -, -, hhere, -, hnode⟩⟩ := Tree.openFile_cases ho
  · exact ⟨hsame ▸ hgrown.here_eq, hsame ▸ hgrown.kept⟩
  refine ⟨hhere.trans hgrown.here_eq, fun {p n} hp => ?_⟩
  rw [hnode, if_neg, hgrown.kept hp]
  rintro rfl
  simp [hgrown.kept hp] at hnone

theorem sound (h : Opening path d r) (hd : d.tree.Sound) : r.2.tree.Sound := by
  obtain ⟨made, hgrown, hleft | ⟨q, id, bytes, ho⟩⟩ := h.exists_left
  · exact hleft ▸ hgrown.sound hd
  · exact (hgrown.sound hd).openFile ho

theorem locks_eq (h : Opening path d (.error e, d')) : d'.locks = d.locks := by
  obtain ⟨-, hlocks⟩ := grown_prepare path d
  cases h with
  | noDirectory hp | noLockFile hp | inUse hp | unreadable hp =>
    rw [hp] at hlocks
    exact hlocks

end Opening

/-- The directory of a state file and its lock file are there, or can be made: the path is short enough, nothing
but directories is on the way, the directory is there in the end, and no directory is where the lock file is. -/
structure Creatable (tree : Tree) (path : String) : Prop where
  noNul : '\x00' ∉ path.toList
  size : (sidecar path "lock").utf8ByteSize ≤ Tree.longestPath
  way : tree.Passable (tree.origin path) (segments path).dropLast
  home : tree.Laid path (tree.home path)
  short : (lastName path ++ "." ++ "lock").utf8ByteSize ≤ Tree.longestName
  free : ¬ tree.Laid path (tree.place (sidecar path "lock"))

instance (tree : Tree) (path : String) : Decidable (Creatable tree path) :=
  decidable_of_iff ('\x00' ∉ path.toList ∧ (sidecar path "lock").utf8ByteSize ≤ Tree.longestPath ∧
      tree.Passable (tree.origin path) (segments path).dropLast ∧ tree.Laid path (tree.home path) ∧
      (lastName path ++ "." ++ "lock").utf8ByteSize ≤ Tree.longestName ∧
      ¬ tree.Laid path (tree.place (sidecar path "lock")))
    ⟨fun ⟨hnul, hsize, hway, hhome, hshort, hfree⟩ => ⟨hnul, hsize, hway, hhome, hshort, hfree⟩,
      fun h => ⟨h.noNul, h.size, h.way, h.home, h.short, h.free⟩⟩

/-- Once its directory has been made, there is nothing at a path, or the text of an object of strings. The empty
path leads nowhere. -/
def Fit (tree : Tree) (path : String) : Prop :=
  path = "" ∨ ¬ tree.Laid path (tree.place path) ∧
    ∀ bytes, tree.bytes? (tree.place path) = some bytes → ∃ e, IsTextOf bytes e

/-- An attempt to open gets as far as the lock of the file. -/
def GetsTo (path : String) (d : Disk) (lock : Nat) (tree : Tree) : Prop :=
  ∃ made p bytes, prepare path d = (.ok (), made) ∧
    made.tree.openFile (sidecar path "lock") = .ok (p, lock, bytes, tree)

/-! What is prepared. -/

theorem prepare_cases (h : prepare path d = (.ok (), made)) :
    above path = [] ∧ made = d ∨ ∃ dir, Files.parent? path = some dir ∧ dir ≠ "" ∧
      d.tree.layDirectories dir = (.ok (), made.tree) := by
  rw [prepare] at h
  split at h
  next hdir =>
    refine .inl ⟨?_, (congrArg Prod.snd h).symm⟩
    cases hp : Files.parent? path with
    | none => rw [above, Files.dropVoid_of_no_parent hp]; rfl
    | some dir =>
      obtain ⟨-, hnil⟩ | ⟨rfl, -⟩ | ⟨hne, -⟩ := Files.above_cases hp
      · exact hnil
      · simp [hp] at hdir
      · simp [hp, hne] at hdir
  next dir hdir =>
    obtain ⟨hp, hne⟩ := Option.filter_eq_some_iff.1 hdir
    refine .inr ⟨dir, hp, by simpa using hne, ?_⟩
    split at h
    next tree hlaid =>
      cases h
      exact hlaid
    next => cases h

theorem start_of_prepare (h : prepare path d = (.ok (), made))
    (hstart : made.tree.node? (made.tree.origin path) = some .directory) :
    d.tree.node? (d.tree.origin path) = some .directory := by
  obtain ⟨-, rfl⟩ | ⟨dir, hp, hne, hlaid⟩ := prepare_cases h
  · exact hstart
  · rw [← Tree.origin_of_parent? hp hne]
    exact Tree.start_of_layDirectoriesWith hne (congrArg Prod.fst hlaid)

theorem laid_iff_of_prepare (h : prepare path d = (.ok (), made))
    (hstart : d.tree.node? (d.tree.origin path) = some .directory) :
    d.tree.Laid path q ↔ made.tree.node? q = some .directory := by
  obtain ⟨hnil, rfl⟩ | ⟨dir, hp, hne, hlaid⟩ := prepare_cases h
  · exact Tree.laid_iff_of_above_eq_nil hnil hstart
  · exact Tree.laid_iff_of_layDirectories hp hne hlaid

theorem exists_walk_of_prepare (h : prepare path d = (.ok (), made))
    (hstart : made.tree.node? (made.tree.origin path) = some .directory) :
    ∃ p, made.tree.walk (made.tree.origin path) (above path) = .ok (.found p .directory) := by
  obtain ⟨hnil, -⟩ | ⟨dir, hp, hne, hlaid⟩ := prepare_cases h
  · exact ⟨_, by rw [hnil, Tree.walk, hstart]⟩
  · exact Tree.exists_walk_above hp hstart (.inr (Tree.isDirectory_of_layDirectories hne hlaid))

theorem Creatable.exists_prepare (ht : d.tree.Sound) (h : Creatable d.tree path) :
    ∃ made, prepare path d = (.ok (), made) := by
  rw [prepare]
  split
  next => exact ⟨d, rfl⟩
  next dir hdir =>
    obtain ⟨hp, hne⟩ := Option.filter_eq_some_iff.1 hdir
    have hne : dir ≠ "" := by simpa using hne
    have hsize : path.utf8ByteSize ≤ Tree.longestPath := by
      have hsize := h.size
      simp only [sidecar, String.utf8ByteSize_append] at hsize
      omega
    obtain ⟨rest, hrest⟩ := Files.above_prefix_dropLast path
    have hway := h.way
    rw [← hrest] at hway
    have hlayable := Tree.Layable.of_parent? hp hne h.noNul hsize hway.left
    have hok := Tree.layDirectoriesWith_ok ht (.inr hlayable) (Nat.lt_succ_self dir.length)
    rcases hlaid : d.tree.layDirectories dir with ⟨r, tree⟩
    obtain rfl : r = .ok () := by rw [← hok, ← Tree.layDirectories, hlaid]
    exact ⟨_, rfl⟩

theorem creatable_iff (ht : d.tree.Sound) :
    Creatable d.tree path ↔ ∃ lock tree, GetsTo path d lock tree := by
  obtain ⟨hgrown, -⟩ := grown_prepare path d
  constructor
  · intro h
    obtain ⟨made, hp⟩ := h.exists_prepare ht
    rw [hp] at hgrown
    have hlaid {q : Place} := laid_iff_of_prepare (q := q) hp h.way.start
    have hhere : made.tree.here = d.tree.here := hgrown.here_eq
    have hway : made.tree.Passable (made.tree.origin path) (segments path).dropLast := by
      rw [Tree.origin, hhere]
      exact h.way.grow hgrown
    have hhome : made.tree.node? (made.tree.home path) = some .directory := by
      rw [Tree.home, hhere]
      exact hlaid.1 h.home
    have hwalk := Tree.walk_home (hgrown.sound ht) hway (exists_walk_of_prepare hp hway.start) hhome
    have hfree : made.tree.node? (made.tree.place (sidecar path "lock")) ≠ some .directory := by
      rw [Tree.place_congr hhere]
      exact fun hdir => h.free (hlaid.2 hdir)
    have hnul : '\x00' ∉ (sidecar path "lock").toList := by simpa [sidecar] using h.noNul
    obtain ⟨lock, bytes, tree, ho⟩ :=
      ((Tree.reaches_sidecar_iff isSuffix_lock).2 ⟨hnul, h.size, h.short, hwalk, hfree⟩).exists_openFile
    exact ⟨lock, tree, made, _, bytes, hp, ho⟩
  · rintro ⟨lock, tree, made, p, bytes, hp, ho⟩
    rw [hp] at hgrown
    have hhere : made.tree.here = d.tree.here := hgrown.here_eq
    obtain ⟨hreaches, -⟩ := Tree.exists_of_openFile ho
    rw [← hreaches.place_eq] at hreaches
    obtain ⟨hnul, hsize, hshort, hwalk, hfree⟩ := (Tree.reaches_sidecar_iff isSuffix_lock).1 hreaches
    have hstart := start_of_prepare hp (Tree.node?_of_walk_directory hwalk)
    have hlaid {q : Place} := laid_iff_of_prepare (q := q) hp hstart
    have hhome := Tree.node?_of_walk_found hwalk
    rw [Tree.place_congr hhere] at hfree
    rw [Tree.home, hhere] at hhome
    have hway := Tree.Passable.of_walk hwalk
    rw [Tree.origin, hhere] at hway
    exact ⟨by simpa [sidecar] using hnul, hsize, hway.ungrow hgrown hstart, hlaid.2 hhome, hshort,
      fun hdir => hfree (hlaid.1 hdir)⟩

namespace GetsTo

theorem node?_place (h : GetsTo path d lock tree) :
    ∃ bytes, tree.node? (tree.place (sidecar path "lock")) = some (.file lock bytes) := by
  obtain ⟨made, p, bytes, hp, ho⟩ := h
  have hfound := Tree.locate_of_openFile ho
  exact ⟨bytes, by rw [Tree.place_of_found hfound, Tree.node?_of_found hfound]⟩

theorem tree_eq (h : GetsTo path d lock tree) : ((FileStore.open path).on d).2.tree = tree := by
  obtain ⟨made, p, bytes, hp, ho⟩ := h
  rw [on_open, hp]
  simp only [ho]
  by_cases hl : lock ∈ made.locks
  · simp [hl]
  · rcases he : load tree path with e | entries <;> simp [hl]

theorem kept (h : GetsTo path d lock tree) : tree.here = d.tree.here ∧
    ∀ {p n}, d.tree.node? p = some n → tree.node? p = some n :=
  h.tree_eq ▸ (opening path d).kept

theorem sound (h : GetsTo path d lock tree) (hd : d.tree.Sound) : tree.Sound :=
  h.tree_eq ▸ (opening path d).sound hd

theorem laid_iff (ht : d.tree.Sound) (h : GetsTo path d lock tree) :
    d.tree.Laid path q ↔ tree.node? q = some .directory := by
  have hstart := ((creatable_iff ht).2 ⟨lock, tree, h⟩).way.start
  obtain ⟨made, p, bytes, hp, ho⟩ := h
  rw [laid_iff_of_prepare hp hstart]
  obtain ⟨hreaches, -, hnode⟩ := Tree.exists_of_openFile ho
  rw [hnode]
  split
  next hqp => simp [hqp, hreaches.node?_ne]
  next => rfl

theorem file_eq (h : GetsTo path d lock tree) (hn : Named path) :
    Filing.file path ({ d with tree } : Disk) = match tree.node? (tree.place path) with
      | some (.file _ bytes) => .ok (some bytes)
      | some .directory => .error .isDirectory
      | none => .ok none := by
  obtain ⟨made, p, bytes, -, ho⟩ := h
  have hlocate := Tree.locate_of_named isSuffix_lock hn (.file (Tree.locate_of_openFile ho))
  change Disk.file path _ = _
  rw [Disk.file, hlocate]
  rcases tree.node? (tree.place path) with _ | _ | _ <;> rfl

theorem bytes?_place_eq (h : GetsTo path d lock tree) :
    tree.bytes? (d.tree.place path) = d.tree.bytes? (d.tree.place path) :=
  h.tree_eq ▸ (opening path d).bytes?_place_eq

theorem exists_directory (ht : d.tree.Sound) (h : GetsTo path d lock tree) (hne : path ≠ "")
    (hn : ¬ Named path) : ∃ q, tree.locate path = .ok (.found q .directory) := by
  have hsound := h.sound ht
  obtain ⟨made, p, bytes, -, ho⟩ := h
  exact Tree.exists_directory_of_not_named hsound isSuffix_lock hne hn (Tree.locate_of_openFile ho)

theorem named (ht : d.tree.Sound) (h : GetsTo path d lock tree) (hf : Fit d.tree path) :
    path = "" ∨ Named path := by
  by_cases hne : path = ""
  · exact .inl hne
  refine .inr (Decidable.byContradiction fun hn => ?_)
  obtain ⟨hlaid, -⟩ := hf.resolve_left hne
  obtain ⟨q, hq⟩ := h.exists_directory ht hne hn
  refine hlaid ((h.laid_iff ht).2 ?_)
  rw [← Tree.place_congr h.kept.1, Tree.place_of_found hq]
  exact Tree.node?_of_found hq

theorem exists_load_iff (ht : d.tree.Sound) (h : GetsTo path d lock tree) :
    (∃ e, load tree path = .ok e) ↔ Fit d.tree path := by
  have hload : load tree path = contents path (Filing.file path ({ d with tree } : Disk)) :=
    load_eq path { d with tree }
  by_cases hne : path = ""
  · subst hne
    exact ⟨fun _ => .inl rfl, fun _ => ⟨.empty, hload⟩⟩
  by_cases hn : Named path
  · have hplace := Tree.place_congr h.kept.1 path
    have hbytes := h.bytes?_place_eq
    rw [hload, h.file_eq hn, Fit, or_iff_right hne, h.laid_iff ht, ← hbytes, hplace, Tree.bytes?]
    rcases tree.node? (d.tree.place path) with _ | _ | ⟨id, bytes⟩
    · simp [contents]
    · simp [contents]
    · simp [contents_eq_ok]
  · refine iff_of_false ?_ fun hf => (h.named ht hf).elim hne hn
    obtain ⟨q, hq⟩ := h.exists_directory ht hne hn
    have hfile : Filing.file path ({ d with tree } : Disk) = .error .isDirectory := by
      change Disk.file path _ = _
      simp only [Disk.file, hq]
    simp [hload, hfile, contents]

theorem exists_open_iff (ht : d.tree.Sound) (h : GetsTo path d lock tree) :
    (∃ store d', (FileStore.open path).on d = (.ok store, d')) ↔ lock ∉ d.locks ∧ Fit d.tree path := by
  rw [← h.exists_load_iff ht]
  obtain ⟨made, p, bytes, hp, ho⟩ := h
  obtain ⟨-, hlocks⟩ := grown_prepare path d
  rw [hp] at hlocks
  rw [← hlocks, on_open, hp]
  simp only [ho]
  by_cases hl : lock ∈ made.locks
  · simp [hl]
  · rcases he : load tree path with e | entries <;> simp [hl]

end GetsTo

theorem taken_of_open {store : FileStore} (ht : d.tree.Sound)
    (h : (FileStore.open path).on d = (.ok store, d')) :
    store.path = path ∧ store.lock ∉ d.locks ∧ d'.locks = store.lock :: d.locks ∧
      GetsTo path d store.lock d'.tree ∧ Fit d.tree path := by
  obtain ⟨-, hlocks⟩ := grown_prepare path d
  have hattempt := opening path d
  rw [h] at hattempt
  cases hattempt with
  | opened hp ho hl he =>
    have hgets : GetsTo path d _ _ := ⟨_, _, _, hp, ho⟩
    rw [hp] at hlocks
    rw [hlocks] at hl
    exact ⟨rfl, hl, congrArg _ hlocks, hgets, (hgets.exists_load_iff ht).1 ⟨_, he⟩⟩

end PushKeeper.Store.FileStore
