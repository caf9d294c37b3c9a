import PushKeeper.Files.Tree
import PushKeeper.Shell.Arithmetic
import PushKeeper.Shell.Syntax

namespace PushKeeper.Shell

inductive Channel
  | null
  | zero
  | full
  | pipe (id : Nat)
  | source (id : Nat)
  | file (number : Nat)
  | directory
  deriving DecidableEq

structure OpenFile where
  id : Nat
  offset : Nat
  append : Bool
  readable : Bool
  writable : Bool
  deriving DecidableEq

structure Variable where
  name : Bytes
  value : Option Bytes
  exported : Bool
  fixed : Bool
  deriving DecidableEq

inductive Kept
  | variable (name : Bytes) (was : Option Variable)
  | options (letters : List Char)

inductive Ended
  | exited (status : Nat)
  | killed (signal : Nat)
  deriving DecidableEq

def Ended.status : Ended → Nat
  | exited n => n
  | killed n => 128 + n

structure Job where
  number : Nat
  process : Nat
  stages : Nat
  ended : Ended
  slept : Bool
  told : Bool
  deriving DecidableEq

structure Session where
  vars : List Variable
  functions : List (Bytes × Command)
  aliases : List (Bytes × Bytes)
  documents : List (Nat × Word)
  title : Bytes
  arguments : List Bytes
  frames : List (List Kept)
  tracked : List Bytes
  mask : Nat
  loops : Nat
  line : Nat
  reached : Nat
  running : Option Bytes
  status : Nat
  innerStatus : Nat
  options : List Char
  traps : List (Nat × Bytes)
  ignored : List Nat
  trapped : Option Nat
  optionWord : Nat
  optionLetter : Option Nat
  process : Nat
  root : Nat
  above : List Nat
  nextProcess : Nat
  jobs : List Job
  slept : Bool
  clock : Nat
  limit : Option Nat
  signals : List (Nat × Nat)
  channels : List (Nat × Channel)
  written : List (Nat × List Bytes)
  sources : List (Nat × Bytes)
  opened : List (Nat × OpenFile)
  fresh : Nat
  directory : Bytes
  tree : Files.Tree

inductive Stop
  | exited
  | failed
  | returned
  | killed (signal : Nat)
  | left (levels : Nat)
  | again (levels : Nat)
  | hung
  deriving DecidableEq

abbrev Run := ExceptT Stop (StateM Session)

namespace Session

def named? (s : Session) (name : Bytes) : Option Variable :=
  s.vars.find? (·.name = name)

def lookUp? (s : Session) (name : Bytes) : Option Bytes :=
  (s.named? name).bind (·.value)

def putVariable (v : Variable) (s : Session) : Session :=
  if (s.named? v.name).isSome then
    { s with vars := s.vars.map fun w => if w.name = v.name then v else w }
  else { s with vars := s.vars ++ [v] }

def variableOr (s : Session) (name : Bytes) : Variable :=
  (s.named? name).getD ⟨name, none, false, false⟩

def pathName : Bytes := "PATH".toList

def placeName : Bytes := "OPTIND".toList

def untracked (name : Bytes) (s : Session) : Session :=
  if name = pathName then { s with tracked := [] } else s

def assign (name value : Bytes) (s : Session) : Session :=
  (s.untracked name).putVariable { s.variableOr name with
    value := some value
    exported := (s.variableOr name).exported || s.options.contains 'a' }

def lasting : List String :=
  ["IFS", "MAIL", "MAILPATH", "OPTIND", "PATH", "PS1", "PS2", "PS4"]

def dropVariable (name : Bytes) (s : Session) : Session :=
  let left (v : Variable) : Option Variable :=
    if v.name ≠ name then some v
    else if v.exported && lasting.contains (textOf name) then some { v with value := none }
    else none
  { s.untracked name with vars := s.vars.filterMap left }

def restore (s : Session) : Kept → Session
  | .variable name none => s.dropVariable name
  | .variable name (some v) => (s.untracked name).putVariable v
  | .options letters => { s with options := letters }

def keep (k : Kept) (s : Session) : Session :=
  match s.frames with
  | frame :: frames => { s with frames := (k :: frame) :: frames }
  | [] => s

def leaveFrame (s : Session) : Session :=
  match s.frames with
  | frame :: frames => frame.foldl restore { s with frames }
  | [] => s

def bucket (name : Bytes) : Nat :=
  ((name.head?.map fun c => 16 * c.toNat).getD 0 + name.foldl (fun n c => n + c.toNat) 0) % 39

def environment (s : Session) : List (Bytes × Bytes) :=
  let given := s.vars.filterMap fun v => if v.exported then v.value.map (v.name, ·) else none
  given.mergeSort fun a b => bucket a.1 ≤ bucket b.1

def separators (s : Session) : Option Bytes := s.lookUp? "IFS".toList

def connect (fd : Nat) (c : Channel) (s : Session) : Session :=
  { s with channels := (fd, c) :: s.channels.filter (·.1 ≠ fd) }

def disconnect (fd : Nat) (s : Session) : Session :=
  { s with channels := s.channels.filter (·.1 ≠ fd) }

def collected (s : Session) (id : Nat) : Bytes :=
  ((List.lookup id s.written).getD []).reverse.flatten

def push (id : Nat) (cs : Bytes) (s : Session) : Session :=
  { s with written := s.written.map fun (n, ws) => if n = id then (n, cs :: ws) else (n, ws) }

def addPipe (s : Session) : Nat × Session :=
  (s.fresh, { s with written := (s.fresh, []) :: s.written, fresh := s.fresh + 1 })

def addSource (cs : Bytes) (s : Session) : Nat × Session :=
  (s.fresh, { s with sources := (s.fresh, cs) :: s.sources, fresh := s.fresh + 1 })

def addFile (f : OpenFile) (s : Session) : Channel × Session :=
  (.file s.fresh, { s with opened := (s.fresh, f) :: s.opened, fresh := s.fresh + 1 })

def fileBytes (s : Session) (f : OpenFile) : Bytes :=
  ((s.tree.placeOf? f.id).map fun (_, bytes) => unpacked bytes).getD []

def seek (number offset : Nat) (s : Session) : Session :=
  { s with opened := s.opened.map fun (n, f) =>
      (n, if n = number then { f with offset } else f) }

def readable (s : Session) (fd : Nat) : Except Files.Fault Bytes :=
  match s.channels.lookup fd with
  | some .null => .ok []
  | some .zero => .ok []
  | some .full => .ok []
  | some (.source id) => .ok ((s.sources.lookup id).getD [])
  | some (.file number) =>
    match s.opened.lookup number with
    | some f => if f.readable then .ok ((s.fileBytes f).drop f.offset) else .error .badDescriptor
    | none => .error .badDescriptor
  | some .directory => .error .isDirectory
  | some (.pipe _) => .error .badDescriptor
  | none => .error .badDescriptor

def consume (fd count : Nat) (s : Session) : Session :=
  match s.channels.lookup fd with
  | some (.source id) =>
    { s with sources := s.sources.map fun (n, cs) => if n = id then (n, cs.drop count) else (n, cs) }
  | some (.file number) =>
    match s.opened.lookup number with
    | some f => s.seek number (f.offset + count)
    | none => s
  | _ => s

def overwritten (old : Bytes) (offset : Nat) (cs : Bytes) : Bytes :=
  old.take offset ++ List.replicate (offset - old.length) '\x00' ++ cs
    ++ old.drop (offset + cs.length)

def writeTo (fd : Nat) (cs : Bytes) (s : Session) : Except Files.Fault Session :=
  match s.channels.lookup fd with
  | some .null => .ok s
  | some .zero => .ok s
  | some .full => .error .noSpace
  | some (.pipe id) => .ok (s.push id cs)
  | some (.file number) =>
    match s.opened.lookup number with
    | some f =>
      if f.writable then
        let old := s.fileBytes f
        let offset := if f.append then old.length else f.offset
        let new := overwritten old offset cs
        .ok { s.seek number (offset + cs.length) with tree := s.tree.overwrite f.id (packed new) }
      else .error .badDescriptor
    | none => .error .badDescriptor
  | some (.source _) => .error .badDescriptor
  | some .directory => .error .badDescriptor
  | none => .error .badDescriptor

def devices : List (Files.Place × Channel) :=
  [(["dev", "null"], .null), (["dev", "zero"], .zero), (["dev", "full"], .full)]

def descriptorAt? (path : String) : Option Nat :=
  match path with
  | "/dev/stdin" => some 0
  | "/dev/stdout" => some 1
  | "/dev/stderr" => some 2
  | path =>
    match Files.segments path with
    | ["", "dev", "fd", n] => n.toNat?
    | ["", "proc", "self", "fd", n] => n.toNat?
    | _ => none

def openForWriting (s : Session) (path : String) (kind : OpenKind) :
    Except Files.Fault (Channel × Session) := do
  if kind = .write && s.options.contains 'C' then
    if let .ok (.found _ (.file ..)) := s.tree.locate path then throw .alreadyExists
  let (_, id, _, tree) ← s.tree.openFile path
  let empties := kind = .write || kind = .overwrite
  let tree := if empties then tree.overwrite id .empty else tree
  let file : OpenFile := {
    id
    offset := 0
    append := kind == .append
    readable := kind == .both
    writable := true }
  return { s with tree }.addFile file

def openPath (s : Session) (path : String) (kind : OpenKind) :
    Except Files.Fault (Channel × Session) := do
  if let some fd := descriptorAt? path then
    match s.channels.lookup fd with
    | some c => return (c, s)
    | none => throw .noEntry
  match ← s.tree.locate path with
  | .found place node =>
    match devices.lookup place, node, kind with
    | some c, _, _ => return (c, s)
    | none, .directory, .read => return (.directory, s)
    | none, .file id _, .read => return s.addFile ⟨id, 0, false, true, false⟩
    | none, _, kind => s.openForWriting path kind
  | .vacant .. => if kind = .read then throw .noEntry else s.openForWriting path kind

def fileText (s : Session) (path : String) : Except Files.Fault Bytes := do
  let (c, opened) ← s.openPath path .read
  let fd := 1000
  (opened.connect fd c).readable fd

end Session

def setStatus (n : Nat) : Run Unit :=
  modify fun s => { s with status := n }

def statusOf (ok : Bool) : Nat := if ok then 0 else 1

def write (fd : Nat) (cs : Bytes) : Run Bool := do
  match (← get).writeTo fd cs with
  | .ok s =>
    set s
    return true
  | .error _ => return false

def readAll (fd : Nat) : Run (Except Files.Fault Bytes) := do
  let s ← get
  let text := s.readable fd
  if let .ok cs := text then set (s.consume fd cs.length)
  return text

def complain (text : Bytes) : Run Unit := do
  let s ← get
  let command : Bytes := match s.running with
    | some name => name ++ [':', ' ']
    | none => []
  let place := s.title ++ bytesOf s!": {Text.Numeral.render s.line}: "
  let _ ← write 2 (place ++ command ++ text ++ ['\n'])

def fail {α : Type} (text : Bytes) : Run α := do
  complain text
  setStatus 2
  throw .failed

def failWith {α : Type} (text : Bytes) : Option α → Run α
  | some a => return a
  | none => fail text

def illegalNumber {α : Type} (text : Bytes) : Run α :=
  fail (bytesOf "Illegal number: " ++ text)

def wholeNumber? (word : Bytes) : Option Nat :=
  match Arithmetic.value? word with
  | some n => if 0 ≤ n ∧ n < Int.pow 2 31 then some n.toNat else none
  | none => none

def wholeNumber (word : Bytes) : Run Nat :=
  match wholeNumber? word with
  | some n => return n
  | none => illegalNumber word

def inTheNameOf {α : Type} (name : Bytes) (run : Run α) : Run α := fun s =>
  let (result, after) := run { s with running := some name }
  (result, { after with running := s.running })

def properName (word : Bytes) : Run Bytes := do
  let name := word.takeWhile (· ≠ '=')
  unless isName name do fail (name ++ bytesOf ": bad variable name")
  return name

def setVariable (word value : Bytes) : Run Unit := do
  let name ← properName word
  let s ← get
  if (s.variableOr name).fixed then fail (name ++ bytesOf ": is read only")
  if name = Session.placeName then
    match wholeNumber? value with
    | some n => modify fun s => { s with optionWord := max n 1, optionLetter := none }
    | none => illegalNumber value
  modify (Session.assign name value)

def unsetVariable (word : Bytes) : Run Unit := do
  let name ← properName word
  let s ← get
  if (s.variableOr name).fixed then fail (name ++ bytesOf ": is read only")
  set (s.dropVariable name)

end PushKeeper.Shell
