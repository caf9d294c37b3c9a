import PushKeeper.Shell.Builtin.Basic

namespace PushKeeper.Shell.Builtin

def trapLines (s : Session) : List Bytes :=
  (List.range signalBound).filterMap fun n =>
    (s.traps.lookup n).map fun action =>
      bytesOf "trap -- " ++ singleQuoted action ++ bytesOf (" " ++ signalName n)

def setTraps (action : Option Bytes) : List Bytes → Run Nat
  | [] => return 0
  | name :: names => do
    match signal? name with
    | none =>
      let _ ← write 2 (bytesOf "trap: " ++ name ++ bytesOf ": bad trap\n")
      return 1
    | some n =>
      modify fun s => { s with
        traps := (action.toList.map (n, ·)) ++ s.traps.filter (·.1 ≠ n) }
      setTraps action names

def trap (arguments : List Bytes) : Run Nat := do
  let (_, words) ← afterOptions "" arguments
  match words with
  | [] => sayLines (trapLines (← get))
  | [name] => setTraps none [name]
  | action :: names =>
    if action.all Char.isDigit && (signal? action).isSome then setTraps none words
    else setTraps (if action = ['-'] then none else some action) names

def killUsage : Bytes :=
  bytesOf ("Usage: kill [-s sigspec | -signum | -sigspec] [pid | job]... or\n"
    ++ "kill -l [exitstatus]")

def jobOf (word : Bytes) : Run Job := do
  let jobs := (← get).jobs
  let found := match word with
    | ['%'] => jobs.head?
    | ['%', '%'] => jobs.head?
    | ['%', '+'] => jobs.head?
    | ['%', '-'] => jobs[1]?
    | _ => (wholeNumber? (word.drop 1)).bind fun n => jobs.find? (·.number = n)
  match found with
  | some job => return job
  | none => fail (bytesOf "No such job: " ++ word)

def sendTo (signal process : Nat) : Run Bool := do
  let s ← get
  let group := s.process :: s.above
  let send (targets : List Nat) : Session :=
    if signal = 0 then s else { s with signals := s.signals ++ targets.map (·, signal) }
  if process = 0 then
    set (send group)
    return true
  else if group.contains process then
    set (send [process])
    return true
  else if s.jobs.any (·.process = process) then
    let after (job : Job) : Job :=
      if job.process = process && job.slept && !isHarmless signal then
        { job with ended := .killed signal, slept := false }
      else job
    set { s with jobs := s.jobs.map after }
    return true
  else return process + 1 = s.root

def sendAll (signal : Nat) : List Bytes → Run Nat
  | [] => return 0
  | word :: words => do
    let there : Bool ← match word with
      | '%' :: _ => do
        let _ ← jobOf word
        pure false
      | '-' :: group => do
        let _ ← wholeNumber group
        pure false
      | _ => do sendTo signal (← wholeNumber word)
    unless there do complain (bytesOf "No such process\n")
    let status ← sendAll signal words
    return max status (statusOf there)

def listSignals (words : List Bytes) : Run Nat := do
  match words with
  | [] =>
    let names := ((List.range signalBound).drop 1).map fun n => bytesOf (signalName n)
    sayLines (['0'] :: names)
  | word :: _ =>
    let n ← wholeNumber word
    let signal := if 128 < n then n - 128 else n
    if 0 < signal && signal < signalBound then sayLines [bytesOf (signalName signal)]
    else fail (bytesOf "invalid signal number or exit status: " ++ word)

def sendable? (word : Bytes) : Option Nat :=
  (signal? word).filter fun n => n ≠ 0 || word.all Char.isDigit

def kill (arguments : List Bytes) : Run Nat := do
  let spec : Option Nat := match arguments with
    | ('-' :: name) :: _ => sendable? name
    | _ => none
  match spec, arguments with
  | some signal, _ :: words => if words.isEmpty then fail killUsage else sendAll signal words
  | _, _ =>
    let isPlain := arguments.head?.bind (·.head?) ≠ some '-'
    let (options, words) ← if isPlain then pure ([], arguments) else readOptions "l" "s" arguments
    let mut signal := none
    for (c, name) in options do
      if c = 's' then
        match sendable? name with
        | some n => signal := some n
        | none => fail (bytesOf "invalid signal number or name: " ++ name)
    if options.any (·.1 = 'l') then
      if signal.isSome && !words.isEmpty then fail killUsage
      else listSignals words
    else if words.isEmpty then fail killUsage
    else sendAll (signal.getD 15) words

def waitFor (status : Nat) : List Bytes → Run Nat
  | [] => return status
  | word :: words => do
    let job ← match word with
      | '%' :: _ => some <$> jobOf word
      | _ => do
        let n ← wholeNumber word
        pure ((← get).jobs.find? (·.process = n))
    match job with
    | none => waitFor status words
    | some job =>
      unless job.told do announce job.ended
      let after (j : Job) : Job :=
        if j.process = job.process then { j with slept := false, told := true } else j
      modify fun s => { s with jobs := s.jobs.map after }
      waitFor job.ended.status words

def stateOf (job : Job) : String :=
  if job.slept && !job.told then "Running"
  else
    match job.ended with
    | .exited 0 => "Done"
    | .exited n => s!"Done({Text.Numeral.render n})"
    | .killed n => ((signals.lookup n).bind (·.2)).getD "Done"

def jobWidth : Nat := 33

def jobMark (place : Nat) : Char := if place = 0 then '+' else if place = 1 then '-' else ' '

def jobLine (withProcess : Bool) (mark : Char) (job : Job) : Bytes :=
  let process := if withProcess then Text.Numeral.digits job.process ++ [' '] else []
  let front := '[' :: Text.Numeral.digits job.number ++ [']', ' ', mark, ' '] ++ process
    ++ bytesOf (stateOf job)
  front.rightpad jobWidth ' ' ++ (List.replicate (job.stages - 1) [' ', '|', ' ']).flatten

def jobLines (line : Char → Job → Bytes) (wanted : Job → Bool) :
    Nat → List Job → List Bytes × List Job
  | _, [] => ([], [])
  | place, job :: jobs =>
    let ends := wanted job && stateOf job ≠ "Running"
    let (lines, left) := jobLines line wanted (if ends then place else place + 1) jobs
    (if wanted job then line (jobMark place) job :: lines else lines, if ends then left else job :: left)

def jobs (arguments : List Bytes) : Run Nat := do
  let (letters, words) ← afterOptions "lp" arguments
  let named ← words.mapM jobOf
  let wanted (job : Job) : Bool := words.isEmpty || named.any (·.number = job.number)
  let line (mark : Char) (job : Job) : Bytes :=
    if letters.contains 'p' then Text.Numeral.digits job.process
    else jobLine (letters.contains 'l') mark job
  let (lines, left) := jobLines line wanted 0 (← get).jobs
  modify fun s => { s with jobs := left }
  sayLines lines

def wait (arguments : List Bytes) : Run Nat := do
  let (_, words) ← afterOptions "" arguments
  if words.isEmpty then
    modify fun s => { s with jobs := s.jobs.map fun j => { j with slept := false, told := true } }
    return 0
  else waitFor 127 words

end PushKeeper.Shell.Builtin
