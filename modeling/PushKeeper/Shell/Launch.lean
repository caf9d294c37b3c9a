import PushKeeper.Shell.Process

namespace PushKeeper.Shell

inductive Program
  | tool (name : String)
  | script (interpreter : Bytes) (argument : Option Bytes)
  deriving DecidableEq

namespace Program

def mark : Bytes := "\x7fELF".toList

def shells : List String := ["sh", "dash", "bash"]

def usualShell : Bytes := "/bin/sh".toList

def ofFirstLine (line : Bytes) : Program :=
  let isGap (c : Char) : Bool := c == ' ' || c == '\t'
  let line := line.dropWhile isGap
  let interpreter := line.takeWhile (!isGap ·)
  let argument := (line.drop interpreter.length).dropWhile isGap
  let argument := (argument.reverse.dropWhile isGap).reverse
  .script interpreter (if argument.isEmpty then none else some argument)

def ofBytes? (cs : Bytes) : Option Program :=
  if mark.isPrefixOf cs then some (.tool (textOf (cs.drop mark.length)))
  else
    match cs with
    | '#' :: '!' :: rest => some (ofFirstLine (rest.takeWhile (· ≠ '\n')))
    | _ => none

def at? (tree : Files.Tree) (path : Bytes) : Except Files.Fault Program := do
  match ← tree.locate (textOf path) with
  | .found _ .directory => throw .permissionDenied
  | .vacant .. => throw .noEntry
  | .found _ (.file id bytes) =>
    if tree.runnable.contains id then
      match ofBytes? (unpacked bytes) with
      | some program => return program
      | none => throw .badFormat
    else throw .permissionDenied

end Program

structure Start where
  program : String
  words : List Bytes
  deriving DecidableEq

namespace Start

def longestWord : Nat := 131071

def deepest : Nat := 6

def follow (tree : Files.Tree) : Nat → Bytes → List Bytes → Except Files.Fault Start
  | 0, _, _ => throw .tooManyLinks
  | depth + 1, path, words => do
    match ← Program.at? tree path with
    | .tool program => return ⟨program, words⟩
    | .script interpreter argument =>
      if interpreter.isEmpty then throw .permissionDenied
      follow tree depth interpreter (interpreter :: argument.toList ++ path :: words.tail)

def ofPath (tree : Files.Tree) (path : Bytes) (words : List Bytes) : Except Files.Fault Start :=
  if words.any (longestWord < ·.length) then throw .argumentsTooLong
  else follow tree deepest path words

def ofPathOrText (tree : Files.Tree) (path : Bytes) (words : List Bytes) :
    Except Files.Fault Start :=
  match ofPath tree path words with
  | .error .badFormat => ofPath tree Program.usualShell (Program.usualShell :: path :: words.tail)
  | result => result

def candidates (directories name : Bytes) : List Bytes :=
  if name.contains '/' then [name]
  else (directories.splitOn ':').map fun d => if d.isEmpty then name else d ++ '/' :: name

def isMissing (fault : Files.Fault) : Bool := fault == .noEntry || fault == .notDirectory

/-- What runs at the first of the paths where something does; `start` tries one. Without one, the last
fault that says more than that there is nothing. -/
def first (start : Bytes → Except Files.Fault Start) :
    Files.Fault → List Bytes → Except Files.Fault Start
  | fault, [] => .error fault
  | fault, path :: paths =>
    match start path with
    | .ok s => .ok s
    | .error cause => first start (if isMissing cause then fault else cause) paths

def ofName (tree : Files.Tree) (directories : Bytes) (words : List Bytes) :
    Except Files.Fault Start :=
  first (fun path => ofPathOrText tree path words) .noEntry
    (candidates directories (words.headD []))

end Start

def Session.replaced (vars : List (Bytes × Bytes)) (s : Session) : Session :=
  { s with
    vars := vars.map fun (name, value) => ⟨name, some value, true, false⟩
    functions := []
    aliases := []
    frames := []
    tracked := []
    loops := 0
    line := 0
    running := none
    options := []
    traps := []
    ignored := s.ignored ++ (s.traps.filter (·.2.isEmpty)).map (·.1)
    trapped := none
    jobs := [] }

def become (run : Runner) (vars : List (Bytes × Bytes)) (start : Start) : Run Unit := do
  modify (Session.replaced vars)
  run (.program start.program start.words)
  throw .exited

def Session.searchPath (s : Session) : Bytes := (s.lookUp? pathName).getD []

def Files.Fault.atStart (fault : Files.Fault) : String :=
  if Start.isMissing fault then "not found" else fault.reason

def execute (run : Runner) (directories : Bytes) (words : List Bytes) : Run Unit := do
  match Start.ofName (← get).tree directories words with
  | .ok start => become run (← get).environment start
  | .error fault =>
    complain (words.headD [] ++ bytesOf (": " ++ Files.Fault.atStart fault))
    let isAbsent := Start.isMissing fault || fault == .nameTooLong || fault == .tooManyLinks
    setStatus (if isAbsent then 127 else 126)
    throw .exited

end PushKeeper.Shell
