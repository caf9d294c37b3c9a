import PushKeeper.Files.Path

namespace PushKeeper.Files

inductive Fault
  | noEntry
  | argumentsTooLong
  | badFormat
  | badDescriptor
  | permissionDenied
  | busy
  | alreadyExists
  | notDirectory
  | isDirectory
  | invalid
  | noSpace
  | nameTooLong
  | directoryNotEmpty
  | tooManyLinks
  | nulInName
  | notText
  deriving DecidableEq

def Fault.said? : Fault → Option (String × Nat)
  | .noEntry => some ("No such file or directory", 2)
  | .argumentsTooLong => some ("Argument list too long", 7)
  | .badFormat => some ("Exec format error", 8)
  | .badDescriptor => some ("Bad file descriptor", 9)
  | .permissionDenied => some ("Permission denied", 13)
  | .busy => some ("Device or resource busy", 16)
  | .alreadyExists => some ("File exists", 17)
  | .notDirectory => some ("Not a directory", 20)
  | .isDirectory => some ("Is a directory", 21)
  | .invalid => some ("Invalid argument", 22)
  | .noSpace => some ("No space left on device", 28)
  | .nameTooLong => some ("File name too long", 36)
  | .directoryNotEmpty => some ("Directory not empty", 39)
  | .tooManyLinks => some ("Too many levels of symbolic links", 40)
  | .nulInName => none
  | .notText => none

def Fault.message (fault : Fault) : String :=
  match fault.said? with
  | some (text, number) => s!"{text} (os error {number})"
  | none =>
    match fault with
    | .nulInName => "file name contained an unexpected NUL byte"
    | _ => "stream did not contain valid UTF-8"

def Fault.reason (fault : Fault) : String :=
  match fault.said? with
  | some (text, _) => text
  | none => "Invalid argument"

abbrev Place := List String

instance (priority := high) decidableEqBytes : DecidableEq ByteArray := ByteArray.instDecidableEq

inductive Node
  | directory
  | file (id : Nat) (bytes : ByteArray)
  deriving DecidableEq

/-- A tree with the place at which relative paths start. The root is always a directory. -/
structure Tree where
  nodes : List (Place × Node)
  fresh : Nat
  here : Place
  runnable : List Nat
  deriving DecidableEq

namespace Tree

def empty : Tree := ⟨[], 0, [], []⟩

instance : Inhabited Tree := ⟨empty⟩

def node? (t : Tree) (p : Place) : Option Node :=
  if p = [] then some .directory else t.nodes.lookup p

def set (t : Tree) (p : Place) (n : Node) : Tree :=
  { t with nodes := (p, n) :: t.nodes.filter (·.1 ≠ p) }

def unset (t : Tree) (p : Place) : Tree :=
  { t with nodes := t.nodes.filter (·.1 ≠ p) }

inductive Located
  | found (place : Place) (node : Node)
  | vacant (place : Place) (slash : Bool)

def longestName : Nat := 255

def longestPath : Nat := 4095

/-- Follows names from a place. Only the last name may lead to nothing. -/
def walk (t : Tree) (p : Place) : List String → Except Fault Located
  | [] =>
    match t.node? p with
    | some n => .ok (.found p n)
    | none => .error .noEntry
  | name :: rest =>
    match t.node? p with
    | none => .error .noEntry
    | some (.file ..) => .error .notDirectory
    | some .directory =>
      if isVoid name then walk t p rest
      else if name = ".." then walk t p.dropLast rest
      else if longestName < name.utf8ByteSize then .error .nameTooLong
      else if (t.node? (p ++ [name])).isSome then walk t (p ++ [name]) rest
      else if rest.all (· = "") then .ok (.vacant (p ++ [name]) !rest.isEmpty)
      else .error .noEntry

section

variable {t : Tree} {p q : Place} {names : List String}

theorem node?_of_walk_found {n : Node} (h : t.walk p names = .ok (.found q n)) : t.node? q = some n := by
  fun_induction walk t p names <;> simp_all

theorem node?_of_walk_vacant {slash : Bool} (h : t.walk p names = .ok (.vacant q slash)) :
    t.node? q = none := by
  fun_induction walk t p names <;> simp_all

end

def locate (t : Tree) (path : String) : Except Fault Located :=
  if path.toList.contains '\x00' then .error .nulInName
  else if path.isEmpty then .error .noEntry
  else if longestPath < path.utf8ByteSize then .error .nameTooLong
  else t.walk (if isAbsolute path then [] else t.here) (segments path)

def has (t : Tree) (path : String) : Bool :=
  match t.locate path with
  | .ok (.found ..) => true
  | _ => false

def isDirectory (t : Tree) (path : String) : Bool :=
  match t.locate path with
  | .ok (.found _ .directory) => true
  | _ => false

def read (t : Tree) (path : String) : Except Fault ByteArray := do
  match ← t.locate path with
  | .found _ (.file _ bytes) => return bytes
  | .found _ .directory => .error .isDirectory
  | .vacant .. => .error .noEntry

def readText (t : Tree) (path : String) : Except Fault String := do
  match String.fromUTF8? (← t.read path) with
  | some s => return s
  | none => .error .notText

def openFile (t : Tree) (path : String) : Except Fault (Place × Nat × ByteArray × Tree) := do
  match ← t.locate path with
  | .found p (.file id bytes) => return (p, id, bytes, t)
  | .found _ .directory => .error .isDirectory
  | .vacant _ true => .error .isDirectory
  | .vacant p false =>
    return (p, t.fresh, .empty, { t.set p (.file t.fresh .empty) with fresh := t.fresh + 1 })

def placeOf? (t : Tree) (id : Nat) : Option (Place × ByteArray) :=
  t.nodes.findSome? fun
    | (p, .file n bytes) => if n = id then some (p, bytes) else none
    | (_, .directory) => none

def overwrite (t : Tree) (id : Nat) (bytes : ByteArray) : Tree :=
  { t with nodes := t.nodes.map fun
      | (p, .file n old) => (p, .file n (if n = id then bytes else old))
      | (p, .directory) => (p, .directory) }

def setRunnable (t : Tree) (id : Nat) (can : Bool) : Tree :=
  let others := t.runnable.filter (· ≠ id)
  { t with runnable := if can then id :: others else others }

def write (t : Tree) (path : String) (bytes : ByteArray) : Except Fault Tree := do
  let (p, id, _, t) ← t.openFile path
  return t.set p (.file id bytes)

def append (t : Tree) (path : String) (bytes : ByteArray) : Except Fault Tree := do
  let (p, id, old, t) ← t.openFile path
  return t.set p (.file id (old ++ bytes))

def makeDirectory (t : Tree) (path : String) : Except Fault Tree := do
  match ← t.locate path with
  | .found .. => .error .alreadyExists
  | .vacant p _ => return t.set p .directory

def ensureDirectory (t : Tree) (path : String) : Except Fault Tree :=
  match t.makeDirectory path with
  | .ok t => .ok t
  | .error e => if t.isDirectory path then .ok t else .error e

def attempt (t : Tree) (result : Except Fault Tree) : Except Fault Unit × Tree :=
  match result with
  | .ok t => (.ok (), t)
  | .error e => (.error e, t)

/-- Makes a directory and those above it that are missing; `fuel` bounds how many. Those that were
made before a failure stay. -/
def layDirectoriesWith (t : Tree) (path : String) : Nat → Except Fault Unit × Tree
  | 0 => (.error .noEntry, t)
  | fuel + 1 =>
    if path.isEmpty then (.ok (), t) else
      match t.ensureDirectory path with
      | .ok t => (.ok (), t)
      | .error .noEntry =>
        match parent? path with
        | none => (.error .noEntry, t)
        | some above =>
          match layDirectoriesWith t above fuel with
          | (.ok (), t) => t.attempt (t.ensureDirectory path)
          | (.error e, t) => (.error e, t)
      | .error e => (.error e, t)

def layDirectories (t : Tree) (path : String) : Except Fault Unit × Tree :=
  t.layDirectoriesWith path (path.length + 1)

def makeDirectories (t : Tree) (path : String) : Except Fault Tree :=
  match t.layDirectories path with
  | (.ok (), t) => .ok t
  | (.error e, _) => .error e

def rename (t : Tree) (source target : String) : Except Fault Tree := do
  match ← t.locate source with
  | .found p node =>
    match ← t.locate target with
    | .found _ .directory => .error .isDirectory
    | .found q _ => return (t.unset p).set q node
    | .vacant _ true => .error .notDirectory
    | .vacant q false => return (t.unset p).set q node
  | .vacant .. => .error .noEntry

def removeFile (t : Tree) (path : String) : Except Fault Tree := do
  match ← t.locate path with
  | .found p (.file ..) => return t.unset p
  | .found _ .directory => .error .isDirectory
  | .vacant .. => .error .noEntry

def clear (t : Tree) (p : Place) : Tree :=
  { t with nodes := t.nodes.filter fun (q, _) => !(p.isPrefixOf q && p ≠ q) }

def removeEmpty (t : Tree) (path : String) : Except Fault Tree :=
  let names := ((segments path).reverse.dropWhile (· = "")).reverse
  match names.getLast? with
  | none => .error .busy
  | some last => do
    match ← t.walk (if isAbsolute path then [] else t.here) names.dropLast with
    | .vacant .. => .error .noEntry
    | .found p _ =>
      if last = "." then .error .invalid
      else if last = ".." then .error .directoryNotEmpty
      else return t.unset (p ++ [last])

/-- Removes a directory with everything in it. What was in it goes first, and stays away when the
directory itself cannot be removed; if its path leads nowhere by then, that is no failure. -/
def removeDirectory (t : Tree) (path : String) : Except Fault Unit × Tree :=
  match t.locate path with
  | .error e => (.error e, t)
  | .ok (.vacant ..) => (.error .noEntry, t)
  | .ok (.found _ (.file ..)) => (.error .notDirectory, t)
  | .ok (.found p .directory) =>
    match (t.clear p).removeEmpty path with
    | .ok t => (.ok (), t)
    | .error .noEntry => (.ok (), t.clear p)
    | .error e => (.error e, t.clear p)

end Tree

end PushKeeper.Files
