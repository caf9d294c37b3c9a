import PushKeeper.Shell.Builtin.Basic
import PushKeeper.Shell.Grammar

namespace PushKeeper.Shell.Builtin

def plainCommands : List String :=
  ["[", "alias", "bg", "cd", "chdir", "command", "echo", "false", "fg", "getopts", "hash", "jobs",
    "kill", "printf", "pwd", "read", "test", "true", "type", "ulimit", "umask", "unalias", "wait"]

def isSpecial (name : Bytes) : Bool := specialCommands.contains (textOf name)

def isCommand (name : Bytes) : Bool := isSpecial name || plainCommands.contains (textOf name)

def usualDirectories : Bytes :=
  "/usr/local/sbin:/usr/local/bin:/usr/sbin:/usr/bin:/sbin:/bin".toList

inductive Found
  | program
  | other
  | nothing
  deriving DecidableEq

def foundAt (s : Session) (path : Bytes) : Found :=
  match s.tree.locate (textOf path) with
  | .ok (.found _ (.file id _)) => if s.tree.runnable.contains id then .program else .other
  | .ok (.found _ .directory) => .other
  | _ => .nothing

def fileOf? (s : Session) (directories name : Bytes) : Option Bytes :=
  (Start.candidates directories name).find? fun path => foundAt s path = .program

def missing (s : Session) (directories name : Bytes) : Files.Fault :=
  if (Start.candidates directories name).any fun path => foundAt s path = .other then
    .permissionDenied
  else .noEntry

def textOf? (s : Session) (name : Bytes) : Option Bytes :=
  (Start.candidates s.searchPath name).find? fun path =>
    match s.tree.locate (textOf path) with
    | .ok (.found _ (.file ..)) => true
    | _ => false

def track (name : Bytes) : Run Unit :=
  modify fun s => if s.tracked.contains name then s else { s with tracked := s.tracked ++ [name] }

def trackedBucket (name : Bytes) : Nat :=
  (16 * (name.headD '\x00').toNat + name.foldl (fun n c => n + c.toNat) 0) % 32768 % 31

def remember (arguments : List Bytes) : Run Nat := do
  let (letters, names) ← afterOptions "r" arguments
  if !letters.isEmpty then
    modify fun s => { s with tracked := [] }
    return 0
  let s ← get
  if names.isEmpty then
    let ordered := s.tracked.mergeSort fun a b => trackedBucket a ≤ trackedBucket b
    return ← sayLines (ordered.filterMap (fileOf? s s.searchPath))
  let mut status := 0
  for name in names do
    unless isCommand name || (s.functions.lookup name).isSome || name.contains '/' do
      if (fileOf? s s.searchPath name).isSome then track name
      else
        complain (name ++ bytesOf ": not found")
        status := 1
  return status

inductive Meaning
  | keyword
  | alias (text : Bytes)
  | function
  | command (special : Bool)
  | program (path : Bytes) (isTracked : Bool)
  deriving DecidableEq

def meaning? (s : Session) (directories : Option Bytes) (name : Bytes) : Option Meaning :=
  let path := directories.getD s.searchPath
  if keywords.contains (textOf name) then some .keyword
  else
    match s.aliases.lookup name with
    | some text => some (.alias text)
    | none =>
      if name.contains '/' then
        if s.tree.has (textOf name) then some (.program name false) else none
      else if !isSpecial name && (s.functions.lookup name).isSome then some .function
      else if isCommand name then some (.command (isSpecial name))
      else
        (fileOf? s path name).map (.program · (directories.isNone && s.tracked.contains name))

def Meaning.describe (name : Bytes) (inWords : Bool) : Meaning → Bytes
  | .keyword => if inWords then name ++ bytesOf " is a shell keyword" else name
  | .alias text =>
    if inWords then name ++ bytesOf " is an alias for " ++ text
    else bytesOf "alias " ++ name ++ '=' :: singleQuoted text
  | .function => if inWords then name ++ bytesOf " is a shell function" else name
  | .command special =>
    if !inWords then name
    else name ++ bytesOf (if special then " is a special shell builtin" else " is a shell builtin")
  | .program path isTracked =>
    if !inWords then path
    else name ++ bytesOf (if isTracked then " is a tracked alias for " else " is ") ++ path

def described (inWords : Bool) (directories : Option Bytes) (name : Bytes) :
    Run (List Bytes × Nat) := do
  match meaning? (← get) directories name with
  | none => return (if inWords then [name ++ bytesOf ": not found"] else [], 127)
  | some m =>
    if let .program path _ := m then
      if directories.isNone && path ≠ name then track name
    return ([m.describe name inWords], 0)

def tell (inWords : Bool) (directories : Option Bytes) (name : Bytes) : Run Nat := do
  let (lines, status) ← described inWords directories name
  return max status (← sayLines lines)

def tellAll (names : List Bytes) : Run Nat := do
  let told ← names.mapM (described true none)
  let status := (told.map (·.2)).foldl max 0
  return max status (← sayLines (told.flatMap (·.1)))

def tellFirst (arguments : List Bytes) : Run Nat := do
  let (letters, names) ← afterOptions "pvV" arguments
  match names with
  | [] => return 0
  | name :: _ =>
    let directories := if letters.contains 'p' then some usualDirectories else none
    if letters.contains 'V' then tell true directories name
    else if letters.contains 'v' then tell false directories name
    else return 0

end PushKeeper.Shell.Builtin
