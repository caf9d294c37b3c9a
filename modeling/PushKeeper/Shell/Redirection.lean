import PushKeeper.Shell.Expansion

namespace PushKeeper.Shell

inductive Change
  | file (fd : Nat) (kind : OpenKind) (path : Bytes)
  | copy (fd source : Nat)
  | close (fd : Nat)
  | document (fd number : Nat)

def badDescriptor {α : Type} : Run α := do
  modify fun s => { s with line := s.reached }
  fail (bytesOf "Syntax error: Bad fd number")

def expandRedirect (run : Runner) : Redirect → Run Change
  | .file fd kind path => return .file fd kind (← expandText run .start path)
  | .copy fd source => return .copy fd source
  | .close fd => return .close fd
  | .document fd number => return .document fd number
  | .copyWord fd source => do
    match ← expandText run .never source with
    | ['-'] => return .close fd
    | [c] =>
      match Text.Numeral.digit? c with
      | some n => return .copy fd n
      | none => badDescriptor
    | _ => badDescriptor

def openComplaint (kind : OpenKind) (path : Bytes) (fault : Files.Fault) : Bytes :=
  let isMissing := fault == .noEntry || fault == .notDirectory
  let (verb, why) : String × String := match kind with
    | .read => ("open", "No such file")
    | _ => ("create", "Directory nonexistent")
  bytesOf ("cannot " ++ verb ++ " ") ++ path
    ++ bytesOf (": " ++ if isMissing then why else fault.reason)

def makeChange (run : Runner) (change : Change) : Run Unit := do
  let s ← get
  match change with
  | .close fd => set (s.disconnect fd)
  | .copy fd source =>
    match s.channels.lookup source with
    | some c => set (s.connect fd c)
    | none => fail (Text.Numeral.digits source ++ bytesOf ": Bad file descriptor")
  | .document fd number =>
    let text ← expandText run .never ((s.documents.lookup number).getD [])
    let (id, s) := (← get).addSource text
    set (s.connect fd (.source id))
  | .file fd kind path =>
    match s.openPath (textOf path) kind with
    | .ok (c, opened) => set (opened.connect fd c)
    | .error fault =>
      -- Where files are not written over, what stands there is opened and not created.
      let opens := kind = .write && s.options.contains 'C' && fault == .isDirectory
        && s.tree.isDirectory (textOf path)
      fail (openComplaint (if opens then .read else kind) path fault)

def caught {α : Type} (body : Run α) : Run (Option α) := fun s =>
  match body s with
  | (.ok a, after) => (.ok (some a), after)
  | (.error .failed, after) => (.ok none, after)
  | (.error e, after) => (.error e, after)

def makeChanges (run : Runner) (changes : List Change) : Run Bool := do
  return (← caught (changes.forM (makeChange run))).isSome

end PushKeeper.Shell
