import PushKeeper.Shell.Builtin.Places
import PushKeeper.Shell.Builtin.Signals
import PushKeeper.Shell.Builtin.Variables
import PushKeeper.Shell.Call
import PushKeeper.Shell.Condition
import PushKeeper.Shell.Tools

namespace PushKeeper.Shell

/-- Runs the lines of a script from one with this number on; `count` is more than there are. Without a
command the status is that of success. -/
def runLines (run : Runner) (how : Manner) (echoes : Bool) :
    (count line : Nat) → (hasRun : Bool) → Bytes → Run Unit
  | 0, _, _, _ => return
  | count + 1, line, hasRun, text => do
    if text.isEmpty then
      unless hasRun do setStatus 0
      return
    let s ← get
    let read := readLine s.aliases s.fresh line text
    if echoes && s.options.contains 'v' then
      let rest := match read with
        | .ok l => l.rest
        | .error _ => []
      let _ ← write 2 (text.take (text.length - rest.length))
    match read with
    | .error (fault, line) =>
      modify fun s => { s with line }
      fail (bytesOf ("Syntax error: " ++ fault.message))
    | .ok l =>
      modify fun s => { s with
        fresh := l.fresh
        documents := l.documents ++ s.documents
        reached := l.line }
      unless l.commands.isEmpty do run (.commands l.commands how)
      runLines run how echoes count l.line (hasRun || !l.commands.isEmpty) l.rest

def runText (run : Runner) (how : Manner) (echoes : Bool) (text : Bytes) : Run Unit := fun s =>
  let (result, after) := runLines run how echoes (text.length + 1) 1 false text s
  (result, { after with reached := s.reached })

def Manner.replaces (how : Manner) (s : Session) : Bool :=
  how.last && s.traps.all (·.2.isEmpty)

def startProgram (run : Runner) (how : Manner) (c : Call) : Run Unit := do
  let s ← get
  let directories := c.directories.getD s.searchPath
  let start : Run Unit := do
    if how.replaces (← get) then execute run directories c.words
    else besides (execute run directories c.words)
  if c.name.contains '/' then start
  else if (Builtin.fileOf? s directories c.name).isSome then do
    if c.directories.isNone then Builtin.track c.name
    start
  else do
    complain (c.name ++ bytesOf (": " ++ Files.Fault.atStart (Builtin.missing s directories c.name)))
    setStatus 127

def callFunction (run : Runner) (how : Manner) (body : Command) (arguments : List Bytes) : Run Unit :=
  fun s =>
    let inside := { s with arguments, loops := 0, optionWord := 1, optionLetter := none }
    let back (after : Session) : Session := { after with
      arguments := s.arguments
      loops := s.loops
      optionWord := s.optionWord
      optionLetter := s.optionLetter }
    match run (.command body how.inner) inside with
    | (.error .returned, after) => (.ok (), back after)
    | (result, after) => (result, back after)

/-- Ends the script. Without a status it is that of the last command, or the one before what is run on
a signal. -/
def exit (arguments : List Bytes) : Run Nat := do
  match arguments with
  | [] => modify fun s => { s with status := s.trapped.getD s.status }
  | word :: _ => setStatus (← wholeNumber word)
  throw .exited

def returnFrom (arguments : List Bytes) : Run Nat := do
  if let word :: _ := arguments then setStatus (← wholeNumber word)
  throw .returned

def leaveLoops (how : Nat → Stop) (arguments : List Bytes) : Run Nat := do
  let n ← match arguments with
    | [] => pure 1
    | word :: _ => do
      let n ← wholeNumber word
      if n = 0 then illegalNumber word else pure n
  let n := min n (← get).loops
  setStatus 0
  if n = 0 then return 0 else throw (how n)

def runFile (run : Runner) (arguments : List Bytes) : Run Nat := do
  match arguments with
  | [] => return 0
  | name :: _ =>
    let s ← get
    let path ← if name.contains '/' then pure name
      else failWith (name ++ bytesOf ": not found") (Builtin.textOf? s name)
    match s.openPath (textOf path) .read with
    | .error fault => fail (openComplaint .read path fault)
    | .ok (.directory, _) => return 0
    | .ok _ =>
      let text := (s.fileText (textOf path)).toOption.getD []
      inTheNameOf path fun s =>
        match run (.file text) s with
        | (.error .returned, after) => (.ok (), after)
        | result => result
      return (← get).status

def printFormat (arguments : List Bytes) : Run Nat := do
  let (_, words) ← Builtin.afterOptions "" arguments
  match words with
  | [] => fail (bytesOf "usage: printf format [arg ...]")
  | format :: rest =>
    let f := printfText format rest
    for text in f.complaints do complain text
    let status ← Builtin.say f.text
    if f.broken then
      setStatus 2
      throw .failed
    return max status (statusOf f.complaints.isEmpty)

def answer (words : List Bytes) : Run Nat := do
  match Condition.holds (← get).tree words with
  | .ok b => return statusOf b
  | .error e => fail e.message

def answerInBrackets (arguments : List Bytes) : Run Nat := do
  if (arguments.getLast?.bind (·.head?)) ≠ some ']' then fail (bytesOf "missing ]")
  answer arguments.dropLast

def limits (arguments : List Bytes) : Run Nat := do
  let (_, words) ← Builtin.afterOptions "HSatfdsmcnplvwr" arguments
  match words with
  | [] => Builtin.sayLines [bytesOf "unlimited"]
  | word :: _ =>
    if word.all Char.isDigit || textOf word = "unlimited" then return 0 else fail (bytesOf "bad number")

def runBuiltin (run : Runner) (how : Manner) (name : String) (arguments : List Bytes) : Run Nat :=
  match name with
  | "true" => return 0
  | ":" => return 0
  | "false" => return 1
  | "echo" => Builtin.say (echoText arguments)
  | "printf" => printFormat arguments
  | "test" => answer arguments
  | "[" => answerInBrackets arguments
  | "exit" => exit arguments
  | "return" => returnFrom arguments
  | "break" => leaveLoops .left arguments
  | "continue" => leaveLoops .again arguments
  | "eval" => do
    run (.text (joinWords arguments) how.inner)
    return (← get).status
  | "." => runFile run arguments
  | "exec" => do
    unless arguments.isEmpty do execute run (← get).searchPath arguments
    return 0
  | "command" => Builtin.tellFirst arguments
  | "type" => Builtin.tellAll arguments
  | "hash" => Builtin.remember arguments
  | "cd" => Builtin.changeDirectory arguments
  | "chdir" => Builtin.changeDirectory arguments
  | "pwd" => Builtin.showDirectory arguments
  | "export" => Builtin.handOn arguments
  | "readonly" => Builtin.fix arguments
  | "local" => Builtin.localize arguments
  | "unset" => Builtin.unset arguments
  | "set" => Builtin.setUp arguments
  | "shift" => Builtin.shift arguments
  | "read" => Builtin.readLine arguments
  | "getopts" => Builtin.nextOption arguments
  | "alias" => Builtin.setAliases arguments
  | "unalias" => Builtin.unalias arguments
  | "umask" => Builtin.mask arguments
  | "trap" => Builtin.trap arguments
  | "kill" => Builtin.kill arguments
  | "wait" => Builtin.wait arguments
  | "ulimit" => limits arguments
  | "times" =>
    let row := bytesOf "0m0.000000s 0m0.000000s"
    Builtin.sayLines [row, row]
  | "jobs" => Builtin.jobs arguments
  | _ => do
    for word in arguments do
      let _ ← Builtin.jobOf word
      fail (bytesOf "job " ++ word ++ bytesOf " not created under job control")
    fail (bytesOf "No current job")

def unwind : Nat → Nat → Run Unit
  | 0, _ => return
  | count + 1, depth => do
    if depth < (← get).frames.length then
      modify Session.leaveFrame
      unwind count depth

def callBuiltin (run : Runner) (how : Manner) (c : Call) (name : String) : Run Unit := do
  let depth := (← get).frames.length
  let body : Run Unit := inTheNameOf c.name do
    setStatus (← runBuiltin run how name c.words.tail)
  if c.special = some true then body
  else if (← caught body).isNone then
    unwind (← get).frames.length depth
    setStatus 2

/-- Makes assignments. Those for one command are undone after it, and programs get them. -/
def assign (run : Runner) (c : Call) (assignments : List Assignment) : Run (List Bytes) :=
  assignments.mapM fun (.mk name value) => do
    let value ← expandText run .value value
    if c.isApart then Builtin.keepVariable name
    setVariable name value
    let handsOn := c.isApart || (c.name = "exec".toList && 1 < c.words.length)
    if handsOn then modify fun s => s.putVariable { s.variableOr name with exported := true }
    return name ++ '=' :: value

def trace (run : Runner) (channels : List (Nat × Channel)) (words : List Bytes) : Run Unit := do
  let s ← get
  unless s.options.contains 'x' do return
  let front := (s.lookUp? "PS4".toList).getD []
  set { s with options := s.options.filter (· ≠ 'x') }
  let front ← match readText front with
    | .ok w => expandText run .never w
    | .error _ => pure front
  modify fun s => { s with channels }
  let _ ← write 2 (front ++ joinWords words ++ ['\n'])
  modify fun t => { t with channels := s.channels, options := s.options }

def runCall (run : Runner) (how : Manner) (c : Call) (assignments : List Assignment)
    (changes : List Change) : Run Unit := do
  let channels := (← get).channels
  if ← makeChanges run changes then
    let assigned ← assign run c assignments
    trace run channels (assigned ++ c.before ++ c.words)
    match c.kind (← get) with
    | .nothing => modify fun s => { s with status := s.innerStatus }
    | .command name => callBuiltin run how c name
    | .function body => callFunction run how body c.words.tail
    | .program => startProgram run how c
  else
    setStatus 2
    if c.special = some true then throw .failed

def withFrame (body : Run Unit) : Run Unit := fun s =>
  match body { s with frames := [] :: s.frames } with
  | (.error .exited, after) => (.error .exited, after)
  | (.error .failed, after) => (.error .failed, after)
  | (result, after) => (result, after.leaveFrame)

def runSimple (run : Runner) (how : Manner) (line : Nat) (assignments : List Assignment)
    (words : List Word) (redirects : List Redirect) : Run Unit := do
  modify fun s => { s with line, innerStatus := 0 }
  let c ← Call.ofWords run words
  let stays := match c.kind (← get) with
    | .command name => name == "exec"
    | _ => false
  let body : Run Unit := do
    let changes ← redirects.mapM (expandRedirect run)
    if stays then runCall run how c assignments changes
    else keepingChannels (runCall run how c assignments changes)
  if c.isApart then withFrame body else body

def inLoop (body : Run Unit) : Run Unit := fun s =>
  let (result, after) := body { s with loops := s.loops + 1 }
  (result, { after with loops := s.loops })

def runLoop (run : Runner) (how : Manner) (kind : LoopKind) (test body : List Command) :
    Nat → Nat → Run Unit
  | 0, _, s => (.error .hung, s)
  | count + 1, status, s =>
    match run (.commands test .asking) s with
    | (.error (.left n), s) =>
      if 1 < n then (.error (.left (n - 1)), s) else (.ok (), { s with status })
    | (.error (.again n), s) =>
      if 1 < n then (.error (.again (n - 1)), s)
      else runLoop run how kind test body count status s
    | (.error e, s) => (.error e, s)
    | (.ok (), s) =>
      let goesOn := match kind with
        | .whileTrue => s.status == 0
        | .untilTrue => s.status != 0
      if !goesOn then (.ok (), { s with status })
      else
        match run (.commands body how) s with
        | (.error (.left n), s) => if 1 < n then (.error (.left (n - 1)), s) else (.ok (), s)
        | (.error (.again n), s) =>
          if 1 < n then (.error (.again (n - 1)), s)
          else runLoop run how kind test body count s.status s
        | (.error e, s) => (.error e, s)
        | (.ok (), s) => runLoop run how kind test body count s.status s

def runEach (run : Runner) (how : Manner) (name : Bytes) (body : List Command) :
    List Bytes → Run Unit
  | [], s => (.ok (), s)
  | word :: words, s =>
    match setVariable name word s with
    | (.error e, s) => (.error e, s)
    | (.ok (), s) =>
      match run (.commands body how) s with
      | (.error (.left n), s) => if 1 < n then (.error (.left (n - 1)), s) else (.ok (), s)
      | (.error (.again n), s) =>
        if 1 < n then (.error (.again (n - 1)), s) else runEach run how name body words s
      | (.error e, s) => (.error e, s)
      | (.ok (), s) => runEach run how name body words s

def fitsOne (run : Runner) (subject : Bytes) : List Word → Run Bool
  | [] => return false
  | w :: ws => do
    if fits (← expandPattern run w) subject then return true else fitsOne run subject ws

def runArms (run : Runner) (how : Manner) (subject : Bytes) : List Arm → Run Unit
  | [] => setStatus 0
  | .mk patterns body :: arms => do
    if ← fitsOne run subject patterns then
      if body.isEmpty then setStatus 0 else run (.commands body how)
    else runArms run how subject arms

def runInside (run : Runner) (how : Manner) (changes : List Change) (body : List Command) : Run Unit :=
  toItsEnd run do
    changes.forM (makeChange run)
    run (.commands body { how with last := true })

def runSubshell (run : Runner) (how : Manner) (line : Nat) (body : List Command)
    (redirects : List Redirect) : Run Unit := do
  modify fun s => { s with line }
  let changes ← redirects.mapM (expandRedirect run)
  if how.replaces (← get) then
    modify fun s => { s with jobs := [], trapped := none }
    runInside run how changes body
    throw .exited
  else besides (runInside run how changes body)

def foresee : Command → Run Unit
  | .simple _ _ ([.text false name] :: _) _ => do
    let s ← get
    let isOther := Builtin.isCommand name || (s.functions.lookup name).isSome
    if isName name && !isOther && (Builtin.fileOf? s s.searchPath name).isSome then
      Builtin.track name
  | _ => return

def runPipe (run : Runner) (how : Manner) : Option Bytes → List Command → Run Unit
  | _, [] => return
  | input, c :: cs => do
    foresee c
    let body : Run Unit := do
      if let some text := input then
        let (id, s) := (← get).addSource text
        set (s.connect 0 (.source id))
      runInside run how [] [c]
    if cs.isEmpty then besides body
    else
      let (text, ended) ← captured body
      announce ended
      runPipe run how (some text) cs

def runAside (run : Runner) (body : Command) : Run Unit := do
  let s ← get
  set { s with slept := false }
  let ended ← inProcess do
    modify fun s => { s.connect 0 .null with ignored := 2 :: 3 :: s.ignored, limit := none }
    runInside run .plain [] [body]
  let stages : Nat := match body with
    | .pipe cs => cs.length
    | _ => 1
  let number := s.freeJobNumber
  let job : Job := ⟨number, s.nextProcess, stages, ended, (← get).slept, false⟩
  modify fun t => { t with
    jobs := job :: t.jobs.filter (·.number ≠ number)
    slept := s.slept || t.slept
    clock := s.clock
    status := 0 }

def checked (run : Runner) (how : Manner) (body : Run Unit) : Run Unit := do
  body
  receive run
  let s ← get
  if s.options.contains 'e' && !how.asked && s.status ≠ 0 then throw .exited

def rounds : Nat := 10000000

def runCommand (run : Runner) (how : Manner) (c : Command) : Run Unit := do
  if (← get).options.contains 'n' then return
  match c with
  | .simple line assignments words redirects =>
    checked run how (runSimple run how line assignments words redirects)
  | .subshell line body redirects => checked run how (runSubshell run how line body redirects)
  | .pipe cs => checked run how (runPipe run how none cs)
  | .redirected line body redirects => checked run how do
    modify fun s => { s with line }
    let changes ← redirects.mapM (expandRedirect run)
    keepingChannels do
      if ← makeChanges run changes then run (.command body how.inner) else setStatus 2
  | .group body => run (.commands body how)
  | .branch test yes no => do
    run (.commands test .asking)
    if (← get).status = 0 then run (.commands yes how)
    else
      match no with
      | some no => run (.commands no how)
      | none => setStatus 0
  | .loop kind test body => inLoop (runLoop run how.inner kind test body rounds 0)
  | .forEach line name words body => do
    modify fun s => { s with line }
    let words ← expandWords run words
    if words.isEmpty then setStatus 0 else inLoop (runEach run how.inner name body words)
  | .choose line subject arms => do
    modify fun s => { s with line }
    runArms run how (← expandText run .start subject) arms
  | .both first second => do
    run (.command first .asking)
    if (← get).status = 0 then run (.command second how)
  | .either first second => do
    run (.command first .asking)
    if (← get).status ≠ 0 then run (.command second how)
  | .negated body => do
    run (.command body .asking)
    modify fun s => { s with status := statusOf (s.status ≠ 0) }
  | .define line name body => modify fun s => { s with
    line
    functions := (name, body) :: s.functions.filter (·.1 ≠ name)
    status := 0 }
  | .aside body => runAside run body

def runAll (run : Runner) (how : Manner) : List Command → Run Unit
  | [] => return
  | [c] => run (.command c how)
  | c :: cs => do
    run (.command c how.inner)
    runAll run how cs

end PushKeeper.Shell
