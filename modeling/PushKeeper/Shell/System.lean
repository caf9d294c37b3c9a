import PushKeeper.Hook.Command
import PushKeeper.Shell.Startup

namespace PushKeeper.Shell

structure System where
  tree : Files.Tree
  environment : List Hook.Setting

namespace System

def hasNul (s : String) : Bool := s.contains '\x00'

def vars (s : System) (settings : List Hook.Setting) : List (Bytes × Bytes) :=
  let entries := (s.environment ++ settings).foldl (fun entries (key, value) =>
    entries.filter (·.1 ≠ key) ++ [(key, value)]) []
  let ordered := entries.mergeSort fun a b => a.1 ≤ b.1
  ordered.foldl (fun vars (key, value) =>
    let entry := bytesOf key ++ '=' :: bytesOf value
    let name := entry.takeWhile (· ≠ '=')
    vars.filter (·.1 ≠ name) ++ [(name, entry.drop (name.length + 1))]) []

/-- What runs where a program is started. A name is looked for in the directories that the program is
given, and then a text is taken for a script; where it is given none, in those of the system. -/
def find (s : System) (words : List Bytes) (settings : List Hook.Setting) :
    Except Files.Fault Start :=
  let name := words.headD []
  if name.contains '/' then Start.ofPath s.tree name words
  else
    match List.lookup "PATH" settings.reverse with
    | some directories => Start.ofName s.tree (bytesOf directories) words
    | none =>
      let directories := (s.environment.lookup "PATH").getD "/bin:/usr/bin"
      Start.first (fun path => Start.ofPath s.tree path words) .noEntry
        (Start.candidates (bytesOf directories) name)

def firstProcess : Nat := 4243

def session (s : System) (vars : List (Bytes × Bytes)) : Session where
  vars := vars.map fun (name, value) => ⟨name, some value, true, false⟩
  functions := []
  aliases := []
  documents := []
  title := []
  arguments := []
  frames := []
  tracked := []
  mask := 18
  loops := 0
  line := 0
  reached := 0
  running := none
  status := 0
  innerStatus := 0
  options := []
  traps := []
  ignored := []
  trapped := none
  optionWord := 1
  optionLetter := none
  process := firstProcess
  root := firstProcess
  above := []
  nextProcess := firstProcess + 1
  jobs := []
  slept := false
  clock := 0
  limit := none
  signals := []
  channels := [(0, .null), (1, .pipe 1), (2, .pipe 2)]
  written := [(1, []), (2, [])]
  sources := []
  opened := []
  fresh := 3
  directory := Builtin.pathOf s.tree.here
  tree := s.tree

def finished (result : Except Stop Unit) (s : Session) : Hook.Finished where
  code :=
    match result with
    | .error (.killed ..) => none
    | .error .hung => none
    | _ => if s.signals.any (·.1 = s.process) then none else some (s.status % 256)
  stderr := (s.collected 2).map fun c => c.toNat.toUInt8

def launch (program : String) (arguments : List String) (settings : List Hook.Setting)
    (s : System) : Except SpawnFault Hook.Finished × System :=
  if (program :: arguments).any hasNul || settings.any fun (n, v) => hasNul n || hasNul v then
    (.error .nulInArguments, s)
  else
    match s.find ((program :: arguments).map bytesOf) settings with
    | .error cause => (.error (.program cause), s)
    | .ok start =>
      let (result, after) :=
        perform deepest (.program start.program start.words) (s.session (s.vars settings))
      (.ok (finished result after), { s with tree := { after.tree with here := s.tree.here } })

instance : Hook.Host System where
  launch := launch

end System

end PushKeeper.Shell
