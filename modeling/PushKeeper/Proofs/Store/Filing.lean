import PushKeeper.Proofs.Files.Beside
import PushKeeper.Proofs.Store.Honest
import PushKeeper.Proofs.Store.RoundTrip

namespace PushKeeper.Store

open Files (Fault isSuffix_tmp sidecar)

/-- A device on which files can be looked at. -/
class Filing (δ : Type) [Device δ] where
  file : String → δ → Except Fault (Option ByteArray)
  file_write {path : String} {bytes : ByteArray} {d : δ} :
    file path (Device.write (sidecar path "tmp") bytes d).2 = file path d
  file_of_write {path : String} {bytes : ByteArray} {d : δ} :
    (Device.write path bytes d).1 = .ok () →
      file path (Device.write path bytes d).2 = .ok (some bytes)
  file_of_rename {source path : String} {bytes : ByteArray} {d : δ} :
    (Device.rename source path d).1 = .ok () → file source d = .ok (some bytes) →
      file path (Device.rename source path d).2 = .ok (some bytes)
  file_rename_error {source path : String} {d : δ} {cause : Fault} :
    (Device.rename source path d).1 = .error cause →
      file path (Device.rename source path d).2 = file path d

namespace Disk

def file (path : String) (d : Disk) : Except Fault (Option ByteArray) :=
  match d.tree.locate path with
  | .ok (.found _ (.file _ bytes)) => .ok (some bytes)
  | .ok (.found _ .directory) => .error .isDirectory
  | _ => .ok none

theorem file_congr {path : String} {d d' : Disk} (h : d'.tree.locate path = d.tree.locate path) :
    file path d' = file path d := by
  rw [file, file, h]

theorem exists_of_file {path : String} {bytes : ByteArray} {d : Disk} (h : file path d = .ok (some bytes)) :
    ∃ p id, d.tree.locate path = .ok (.found p (.file id bytes)) := by
  unfold file at h
  split at h <;> simp_all

variable {d : Disk}

theorem change_ok {result : Except Fault Files.Tree} (h : (d.change result).1 = .ok ()) :
    ∃ tree, result = .ok tree ∧ (d.change result).2 = { d with tree } := by
  cases result with
  | error e => cases h
  | ok tree => exact ⟨tree, rfl, rfl⟩

theorem change_error {result : Except Fault Files.Tree} {e : Fault} (h : (d.change result).1 = .error e) :
    (d.change result).2 = d := by
  cases result with
  | error e => rfl
  | ok tree => cases h

section

variable {source path : String} {bytes : ByteArray}

theorem write_ok (h : (Device.write path bytes d).1 = .ok ()) :
    ∃ tree, d.tree.write path bytes = .ok tree ∧ (Device.write path bytes d).2 = { d with tree } :=
  change_ok h

theorem write_error {e : Fault} (h : (Device.write path bytes d).1 = .error e) :
    (Device.write path bytes d).2 = d :=
  change_error h

theorem rename_ok (h : (Device.rename source path d).1 = .ok ()) :
    ∃ tree, d.tree.rename source path = .ok tree ∧ (Device.rename source path d).2 = { d with tree } :=
  change_ok h

theorem rename_error {e : Fault} (h : (Device.rename source path d).1 = .error e) :
    (Device.rename source path d).2 = d :=
  change_error h

end

instance : Filing Disk where
  file := file
  file_write {path bytes d} := by
    cases hw : (Device.write (sidecar path "tmp") bytes d).1 with
    | error e => rw [write_error hw]
    | ok u =>
      obtain ⟨tree, ht, hd⟩ := write_ok hw
      rw [hd]
      exact file_congr (Files.Tree.locate_of_write_sidecar isSuffix_tmp ht)
  file_of_write {path bytes d} h := by
    obtain ⟨tree, ht, hd⟩ := write_ok h
    obtain ⟨p, id, hp⟩ := Files.Tree.exists_locate_of_write ht
    rw [hd, file, hp]
  file_of_rename {source path bytes d} h hs := by
    obtain ⟨p, id, hp⟩ := exists_of_file hs
    obtain ⟨tree, ht, hd⟩ := rename_ok h
    obtain ⟨q, hq⟩ := Files.Tree.exists_locate_of_rename hp ht
    rw [hd, file, hq]
  file_rename_error h := by rw [rename_error h]

end Disk

/-- How a call to a disk comes out. -/
inductive Verdict
  | done
  | failed (cause : Fault) (written : Option Nat)
  | stopped (written : Option Nat)

/-- A disk whose calls come out as planned, and as the disk has it when the plan is at its end. -/
structure FaultyDisk where
  disk : Disk
  plan : List Verdict

namespace FaultyDisk

def writePart (written : Option Nat) (path : String) (bytes : ByteArray) (d : Disk) : Disk :=
  match written with
  | none => d
  | some n => (Device.write path (bytes.extract 0 n) d).2

instance : Device FaultyDisk where
  write path bytes d :=
    match d.plan with
    | .failed cause written :: plan => (.error cause, ⟨writePart written path bytes d.disk, plan⟩)
    | .stopped written :: _ =>
      -- Nobody is left to see the answer.
      (.error .badDescriptor, ⟨writePart written path bytes d.disk, [.stopped none]⟩)
    | plan =>
      let (answer, disk) := Device.write path bytes d.disk
      (answer, ⟨disk, plan.tail⟩)
  rename source path d :=
    match d.plan with
    | .failed cause _ :: plan => (.error cause, { d with plan })
    | .stopped _ :: _ => (.error .badDescriptor, { d with plan := [.stopped none] })
    | plan =>
      let (answer, disk) := Device.rename source path d.disk
      (answer, ⟨disk, plan.tail⟩)

section

variable (source path : String) (bytes : ByteArray) (d : FaultyDisk)

theorem write_cases :
    ((Device.write path bytes d).1 = (Device.write path bytes d.disk).1 ∧
      (Device.write path bytes d).2.disk = (Device.write path bytes d.disk).2) ∨
    ∃ cause written, (Device.write path bytes d).1 = .error cause ∧
      (Device.write path bytes d).2.disk = writePart written path bytes d.disk := by
  rcases d with ⟨disk, _ | ⟨_ | ⟨cause, written⟩ | written, plan⟩⟩
  · exact .inl ⟨rfl, rfl⟩
  · exact .inl ⟨rfl, rfl⟩
  · exact .inr ⟨cause, written, rfl, rfl⟩
  · exact .inr ⟨.badDescriptor, written, rfl, rfl⟩

theorem rename_cases :
    ((Device.rename source path d).1 = (Device.rename source path d.disk).1 ∧
      (Device.rename source path d).2.disk = (Device.rename source path d.disk).2) ∨
    ∃ cause, (Device.rename source path d).1 = .error cause ∧
      (Device.rename source path d).2.disk = d.disk := by
  rcases d with ⟨disk, _ | ⟨_ | ⟨cause, written⟩ | written, plan⟩⟩
  · exact .inl ⟨rfl, rfl⟩
  · exact .inl ⟨rfl, rfl⟩
  · exact .inr ⟨cause, rfl, rfl⟩
  · exact .inr ⟨.badDescriptor, rfl, rfl⟩

end

instance : Filing FaultyDisk where
  file path d := Filing.file path d.disk
  file_write {path bytes d} := by
    obtain ⟨-, hd⟩ | ⟨cause, written, -, hd⟩ := write_cases (sidecar path "tmp") bytes d <;> rw [hd]
    · exact Filing.file_write
    · cases written with
      | none => rfl
      | some n => exact Filing.file_write
  file_of_write {path bytes d} h := by
    obtain ⟨ha, hd⟩ | ⟨cause, written, ha, -⟩ := write_cases path bytes d <;> rw [ha] at h
    · rw [hd]
      exact Filing.file_of_write h
    · cases h
  file_of_rename {source path bytes d} h hs := by
    obtain ⟨ha, hd⟩ | ⟨cause, ha, -⟩ := rename_cases source path d <;> rw [ha] at h
    · rw [hd]
      exact Filing.file_of_rename h hs
    · cases h
  file_rename_error {source path d cause} h := by
    obtain ⟨ha, hd⟩ | ⟨cause', -, hd⟩ := rename_cases source path d <;> rw [hd]
    rw [ha] at h
    exact Filing.file_rename_error h

theorem file_eq (path : String) (d : FaultyDisk) : Filing.file path d = Filing.file path d.disk := rfl

end FaultyDisk

namespace FileStore

def contents (path : String) (file : Except Fault (Option ByteArray)) : Except Failure Entries :=
  match file with
  | .error cause => .error (.io (.files cause))
  | .ok none => .ok .empty
  | .ok (some bytes) =>
    match String.fromUTF8? bytes with
    | none => .error (.io (.files .notText))
    | some text =>
      match Entries.parse text with
      | .ok entries => .ok entries
      | .error _ => .error (.corruptState path)

theorem load_eq (path : String) (d : Disk) : load d.tree path = contents path (Filing.file path d) := by
  change _ = contents path (Disk.file path d)
  rcases hl : d.tree.locate path with e | (⟨p, _ | ⟨id, bytes⟩⟩ | ⟨p, slash⟩)
  · simp [load, Disk.file, Files.Tree.has, hl, contents]
  · have hread : d.tree.read path = .error .isDirectory := by rw [Files.Tree.read, hl]; rfl
    simp [load, Disk.file, Files.Tree.has, Files.Tree.readText, hread, hl, contents, bind, Except.bind]
  · have hread : d.tree.read path = .ok bytes := by rw [Files.Tree.read, hl]; rfl
    simp only [load, Disk.file, Files.Tree.has, Files.Tree.readText, hread, hl, contents, bind, Except.bind]
    cases String.fromUTF8? bytes <;> rfl
  · simp [load, Disk.file, Files.Tree.has, hl, contents]

theorem contents_render (path : String) (e : Entries) :
    contents path (.ok (some e.render.toUTF8)) = .ok e := by
  have hutf8 : String.fromUTF8? e.render.toUTF8 = some e.render := by
    simpa [String.fromUTF8?] using ⟨e.render.isValidUTF8, rfl⟩
  simp only [contents, hutf8, Entries.parse_render]

section

variable {δ : Type} [Device δ] (path : String) (e : Entries) (d : δ)

theorem persist_cases :
    let written := Device.write (sidecar path "tmp") e.render.toUTF8 d
    let moved := Device.rename (sidecar path "tmp") path written.2
    (∃ cause f, written.1 = .error cause ∧ persist path e d = (.error f, written.2)) ∨
      written.1 = .ok () ∧
        ((∃ cause f, moved.1 = .error cause ∧ persist path e d = (.error f, moved.2)) ∨
          moved.1 = .ok () ∧ persist path e d = (.ok (), moved.2)) := by
  rcases hw : Device.write (sidecar path "tmp") e.render.toUTF8 d with ⟨cause | _, d'⟩
  · exact .inl ⟨cause, .store (.writeTemporary (sidecar path "tmp") cause), rfl, by
      simp only [persist, hw]⟩
  · rcases hr : Device.rename (sidecar path "tmp") path d' with ⟨cause | _, d''⟩
    · exact .inr ⟨rfl, .inl ⟨cause, .store (.replace path cause), by simp only [hr], by
        simp only [persist, hw, hr]⟩⟩
    · exact .inr ⟨rfl, .inr ⟨by simp only [hr], by simp only [persist, hw, hr]⟩⟩

theorem file_persist [Filing δ] :
    (∃ d' f, persist path e d = (.error f, d') ∧ Filing.file path d' = Filing.file path d) ∨
      ∃ d', persist path e d = (.ok (), d') ∧ Filing.file path d' = .ok (some e.render.toUTF8) := by
  obtain ⟨cause, f, -, hp⟩ | ⟨hw, ⟨cause, f, hr, hp⟩ | ⟨hr, hp⟩⟩ := persist_cases path e d
  · exact .inl ⟨_, f, hp, Filing.file_write⟩
  · refine .inl ⟨_, f, hp, ?_⟩
    rw [Filing.file_rename_error hr, Filing.file_write]
  · exact .inr ⟨_, hp, Filing.file_of_rename hr (Filing.file_of_write hw)⟩

end

end FileStore

end PushKeeper.Store
