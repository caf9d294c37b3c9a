import PushKeeper.Proofs.Files.Parents
import PushKeeper.Proofs.Store.Members
import PushKeeper.Proofs.Store.Opening

namespace PushKeeper.Store.FileStore

open Files (isSuffix_lock sidecar)

/-- The lock file of a state file can be opened, and nobody has it locked. -/
def LockFree (path : String) (d : Disk) : Prop :=
  ∃ p lock bytes tree, d.tree.openFile (sidecar path "lock") = .ok (p, lock, bytes, tree) ∧
    lock ∉ d.locks

/-- The bytes are those of a text. -/
def IsText (bytes : ByteArray) : Prop :=
  ∃ text : String, bytes = text.toUTF8

/-- The bytes are the text of one object of strings, and the entries are its members. Of members with one
name the last counts. -/
def IsTextOf (bytes : ByteArray) (e : Entries) : Prop :=
  ∃ (text : String) (ms : List (String × String)), bytes = text.toUTF8 ∧
    Entries.IsObject ms text.toList ∧ ∀ key, e.get? key = ms.reverse.lookup key

theorem fromUTF8?_eq_some {bytes : ByteArray} {text : String} :
    String.fromUTF8? bytes = some text ↔ bytes = text.toUTF8 := by
  rw [String.fromUTF8?]
  constructor
  · intro h
    split at h
    next => rw [← Option.some.inj h]; rfl
    next => cases h
  · rintro rfl
    exact dif_pos text.isValidUTF8

variable {path : String} {d : Disk} {bytes : ByteArray}

theorem prepare_eq_of_file (h : Filing.file path d = .ok (some bytes)) : prepare path d = (.ok (), d) := by
  obtain ⟨p, id, hp⟩ := Disk.exists_of_file h
  rw [prepare]
  split
  next => rfl
  next dir hdir =>
    obtain ⟨hdir, hne⟩ := Option.filter_eq_some_iff.1 hdir
    have hstanding := Files.Tree.isDirectory_parent hp hdir (by simpa using hne)
    rw [Files.Tree.layDirectories_eq hstanding]

theorem open_eq_of_file (h : Filing.file path d = .ok (some bytes)) (hl : LockFree path d) :
    Filing.file path ((FileStore.open path).on d).2 = .ok (some bytes) ∧
      ((FileStore.open path).on d).1.map FileStore.entries = contents path (.ok (some bytes)) := by
  obtain ⟨p, lock, content, tree, ho, hlock⟩ := hl
  have hlocate : tree.locate path = d.tree.locate path :=
    Files.Tree.locate_of_openFile_sidecar isSuffix_lock ho
  have hfile (locks : List Nat) : Filing.file path (⟨tree, locks⟩ : Disk) = .ok (some bytes) :=
    (Disk.file_congr hlocate).trans h
  have hload : load tree path = contents path (.ok (some bytes)) := by
    rw [← hfile d.locks]
    exact load_eq path ⟨tree, d.locks⟩
  rw [on_open, prepare_eq_of_file h]
  simp only [ho, if_neg hlock]
  rw [← hload]
  rcases load tree path with e | entries
  · exact ⟨hfile _, rfl⟩
  · exact ⟨hfile _, rfl⟩

theorem contents_of_text (path text : String) : contents path (.ok (some text.toUTF8)) =
    (Entries.parse text).mapError fun _ => .corruptState path := by
  simp only [contents, fromUTF8?_eq_some.2 rfl]
  cases Entries.parse text <;> rfl

theorem contents_of_not_text (h : ¬ IsText bytes) :
    contents path (.ok (some bytes)) = .error (.io (.files .notText)) := by
  have hnone : String.fromUTF8? bytes = none :=
    Option.eq_none_iff_forall_ne_some.2 fun text ht => h ⟨text, fromUTF8?_eq_some.1 ht⟩
  simp only [contents, hnone]

theorem contents_eq_ok {e : Entries} : contents path (.ok (some bytes)) = .ok e ↔ IsTextOf bytes e := by
  have hparse (text : String) : Entries.parse text = .ok e ↔ ∃ ms, Entries.IsObject ms text.toList ∧
      ∀ key, e.get? key = ms.reverse.lookup key := by
    simp [Entries.parse_eq_ok, Entries.ext_iff, Entries.get?_insertAll_eq]
  by_cases ht : IsText bytes
  · obtain ⟨text, rfl⟩ := ht
    rw [contents_of_text]
    constructor
    · intro h
      have hread : Entries.parse text = .ok e := by
        cases hp : Entries.parse text <;> simp_all [Except.mapError]
      obtain ⟨ms, hms, he⟩ := (hparse text).1 hread
      exact ⟨text, ms, rfl, hms, he⟩
    · rintro ⟨text', ms, htext, hms, he⟩
      obtain rfl : text = text' := String.toByteArray_inj.1 htext
      rw [(hparse text).2 ⟨ms, hms, he⟩]
      rfl
  · rw [contents_of_not_text ht]
    constructor
    · intro h
      cases h
    · rintro ⟨text, ms, rfl, -⟩
      exact absurd ⟨text, rfl⟩ ht

theorem contents_eq_error {cause : Failure} (h : contents path (.ok (some bytes)) = .error cause) :
    IsText bytes ∧ cause = .corruptState path ∨ ¬ IsText bytes ∧ cause = .io (.files .notText) := by
  by_cases ht : IsText bytes
  · refine .inl ⟨ht, ?_⟩
    obtain ⟨text, rfl⟩ := ht
    rw [contents_of_text] at h
    cases hp : Entries.parse text <;> simp_all [Except.mapError]
  · refine .inr ⟨ht, ?_⟩
    rw [contents_of_not_text ht] at h
    exact (Except.error.inj h).symm

/-- A regular file whose lock is free is opened exactly if it is the text of an object of strings, and then
it holds the members of that object. A file that is not opened is reported as corrupt, which is fatal, if and
only if its bytes are a text. The bytes stay as they are. -/
theorem corrupt_iff_isText (path : String) (d : Disk) (bytes : ByteArray)
    (h : Filing.file path d = .ok (some bytes)) (hl : LockFree path d) :
    let r := (FileStore.open path).on d
    Filing.file path r.2 = .ok (some bytes) ∧
      (∀ e, (∃ store, r.1 = .ok store ∧ store.entries = e) ↔ IsTextOf bytes e) ∧
      ∀ cause, r.1 = .error cause →
        (cause = .corruptState path ∧ cause.isFatal = true ↔ IsText bytes) ∧
        (¬ IsText bytes → cause = .io (.files .notText) ∧ cause.isFatal = false) := by
  obtain ⟨hfile, hentries⟩ := open_eq_of_file h hl
  refine ⟨hfile, fun e => ?_, fun cause hr => ?_⟩
  · rw [← @contents_eq_ok path, ← hentries]
    cases ((FileStore.open path).on d).1 <;> simp [Except.map]
  · rw [hr] at hentries
    obtain ⟨ht, rfl⟩ | ⟨ht, rfl⟩ := contents_eq_error hentries.symm
    · simp [ht, Failure.isFatal]
    · simp [ht, Failure.isFatal]

/-- A list is the text of a value, but not of an object. -/
theorem corrupt_of_list :
    let bytes := "[]".toUTF8
    let d : Disk := ⟨⟨[(["state.json"], .file 0 bytes)], 1, [], []⟩, []⟩
    ((FileStore.open "state.json").on d).1 = .error (.corruptState "state.json") ∧ IsText bytes := by
  intro bytes d
  have h : Filing.file "state.json" d = .ok (some bytes) := by decide +kernel
  have hl : LockFree "state.json" d := ⟨_, _, _, _, rfl, by decide⟩
  have hr : ((FileStore.open "state.json").on d).1 = .error (.corruptState "state.json") := by
    decide +kernel
  obtain ⟨-, -, hcause⟩ := corrupt_iff_isText "state.json" d bytes h hl
  exact ⟨hr, (hcause _ hr).1.1 ⟨rfl, rfl⟩⟩

/-- A byte that is in no text is left as it is, and the file does not count as corrupt. -/
theorem not_corrupt_of_no_text :
    let bytes : ByteArray := ⟨#[0xff]⟩
    let d : Disk := ⟨⟨[(["state.json"], .file 0 bytes)], 1, [], []⟩, []⟩
    Filing.file "state.json" d = .ok (some bytes) ∧ LockFree "state.json" d ∧
      ((FileStore.open "state.json").on d).1 = .error (.io (.files .notText)) ∧
      (Failure.io (.files .notText)).isFatal = false :=
  ⟨by decide +kernel, ⟨_, _, _, _, rfl, by decide⟩, by decide +kernel, rfl⟩

end PushKeeper.Store.FileStore
