import PushKeeper.Shell.Session

namespace PushKeeper.Shell

structure Manner where
  asked : Bool
  last : Bool
  deriving DecidableEq

namespace Manner

def plain : Manner := ⟨false, false⟩

def asking : Manner := ⟨true, false⟩

def inner (m : Manner) : Manner := { m with last := false }

end Manner

inductive Task
  | commands (cs : List Command) (how : Manner)
  | command (c : Command) (how : Manner)
  | text (cs : Bytes) (how : Manner)
  | file (cs : Bytes)
  | program (name : String) (words : List Bytes)

abbrev Runner := Task → Run Unit

def signals : List (Nat × String × Option String) :=
  [(1, "HUP", some "Hangup"), (2, "INT", none), (3, "QUIT", some "Quit"),
    (4, "ILL", some "Illegal instruction"), (5, "TRAP", some "Trace/breakpoint trap"),
    (6, "ABRT", some "Aborted"), (7, "BUS", some "Bus error"),
    (8, "FPE", some "Floating point exception"), (9, "KILL", some "Killed"),
    (10, "USR1", some "User defined signal 1"), (11, "SEGV", some "Segmentation fault"),
    (12, "USR2", some "User defined signal 2"), (13, "PIPE", none),
    (14, "ALRM", some "Alarm clock"), (15, "TERM", some "Terminated"),
    (16, "STKFLT", some "Stack fault"), (17, "CHLD", none), (18, "CONT", none), (19, "STOP", none),
    (20, "TSTP", none), (21, "TTIN", none), (22, "TTOU", none), (23, "URG", none),
    (24, "XCPU", some "CPU time limit exceeded"), (25, "XFSZ", some "File size limit exceeded"),
    (26, "VTALRM", some "Virtual timer expired"), (27, "PROF", some "Profiling timer expired"),
    (28, "WINCH", none), (29, "IO", some "I/O possible"), (30, "PWR", some "Power failure"),
    (31, "SYS", some "Bad system call")]

def signalBound : Nat := 65

def signalName (n : Nat) : String :=
  if n = 0 then "EXIT"
  else
    match signals.lookup n with
    | some (name, _) => name
    | none =>
      if n = 34 then "RTMIN" else if n = 64 then "RTMAX"
      else if n < 50 then s!"RTMIN+{Text.Numeral.render (n - 34)}"
      else s!"RTMAX-{Text.Numeral.render (64 - n)}"

def signal? (word : Bytes) : Option Nat :=
  if !word.isEmpty && word.all Char.isDigit then
    Text.Numeral.parse? signalBound (String.ofList word)
  else
    let name := (textOf word).toUpper
    (List.range signalBound).find? fun n => signalName n = name

def isHarmless (signal : Nat) : Bool := [0, 17, 18, 19, 20, 21, 22, 23, 28].contains signal

def isFinal (signal : Nat) : Bool := signal == 9 || signal == 19

def Session.action? (s : Session) (signal : Nat) : Option Bytes :=
  if isFinal signal then none
  else if s.ignored.contains signal then some []
  else s.traps.lookup signal

/-- Runs what is to be run on a signal. The status is as before unless it leaves what is running. -/
def runTrap (run : Runner) (action : Bytes) : Run Unit := fun s =>
  match run (.text action .plain) { s with trapped := s.trapped.or (some s.status) } with
  | (.ok (), after) => (.ok (), { after with trapped := s.trapped, status := s.status })
  | (.error e, after) => (.error e, { after with trapped := s.trapped })

def receive (run : Runner) : Run Unit := do
  let s ← get
  let mine := (s.signals.filter (·.1 = s.process)).map (·.2)
  if mine.isEmpty then return
  set { s with signals := s.signals.filter (·.1 ≠ s.process) }
  for n in mine do
    let s ← get
    match s.action? n with
    | none => unless isHarmless n do throw (.killed n)
    | some [] => pure ()
    | some action => runTrap run action

def Session.forked (s : Session) : Session :=
  { s with
    process := s.nextProcess
    nextProcess := s.nextProcess + 1
    above := s.process :: s.above
    traps := s.traps.filter (·.2.isEmpty)
    jobs := []
    trapped := none }

def Session.afterChild (s child : Session) : Session :=
  { s with
    nextProcess := child.nextProcess
    slept := s.slept || child.slept
    clock := child.clock
    signals := child.signals
    written := child.written
    sources := child.sources
    opened := child.opened
    fresh := child.fresh
    tree := { child.tree with here := s.tree.here } }

def Session.ending? (s : Session) : Option Nat :=
  (s.signals.filter (·.1 = s.process)).findSome? fun (_, n) =>
    if (s.action? n).isNone && !isHarmless n then some n else none

/-- Does something in a process beside this one. A signal that ends this one does so while it waits. -/
def inProcess (body : Run Unit) : Run Ended := fun s =>
  let resume (ended : Ended) (s : Session) : Except Stop Ended × Session :=
    match s.ending? with
    | some n => (.error (.killed n), { s with signals := s.signals.filter (·.1 ≠ s.process) })
    | none => (.ok ended, s)
  match body s.forked with
  | (.error .hung, child) => (.error .hung, s.afterChild child)
  | (.error (.killed n), child) => resume (.killed n) (s.afterChild child)
  | (_, child) => resume (.exited (child.status % 256)) (s.afterChild child)

def Session.freeJobNumber (s : Session) : Nat :=
  let isTaken (n : Nat) : Bool := s.jobs.any fun job => job.number = n && !job.told
  ((List.range' 1 (s.jobs.length + 1)).find? (!isTaken ·)).getD 1

def announce (ended : Ended) : Run Unit := do
  if let .killed n := ended then
    if let some (_, some text) := signals.lookup n then
      let _ ← write 2 (bytesOf (text ++ "\n"))

def besides (body : Run Unit) : Run Unit := do
  let ended ← inProcess body
  announce ended
  setStatus ended.status

def toItsEnd (run : Runner) (body : Run Unit) : Run Unit := fun s =>
  let ending (s : Session) : Except Stop Unit × Session :=
    match s.traps.lookup 0 with
    | none => (.ok (), s)
    | some action =>
      let before := { s with
        traps := s.traps.filter (·.1 ≠ 0)
        trapped := s.trapped.or (some s.status) }
      match run (.text action .plain) before with
      | (.error .exited, after) => (.ok (), after)
      | (.error .failed, after) => (.ok (), { after with status := 2 })
      | (.error .hung, after) => (.error .hung, after)
      | (.error (.killed n), after) => (.error (.killed n), after)
      | (_, after) => (.ok (), { after with status := s.status })
  match body s with
  | (.error .hung, s) => (.error .hung, s)
  | (.error (.killed n), s) => (.error (.killed n), s)
  | (.error .failed, s) => ending { s with status := 2 }
  | (_, s) => ending s

def keepingChannels {α : Type} (body : Run α) : Run α := fun s =>
  let (result, after) := body s
  (result, { after with channels := s.channels })

def captured (body : Run Unit) : Run (Bytes × Ended) := do
  let (id, s) := (← get).addPipe
  set s
  let ended ← inProcess do
    modify (Session.connect 1 (.pipe id))
    body
  return ((← get).collected id, ended)

end PushKeeper.Shell
