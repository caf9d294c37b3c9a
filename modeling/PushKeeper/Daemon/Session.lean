import PushKeeper.Receiver.Intake
import PushKeeper.Receiver.Work

namespace PushKeeper.Daemon

open Registration (Snapshot)
open Store (KeyValueStore)

inductive Stage
  | serving
  | closing
  | stopped
  deriving DecidableEq

/-- A session on a store. -/
structure Session (σ : Type) where
  receiver : Receiver σ
  position : Nat
  unread : Option (List UInt8)
  queue : List Feed.Request
  stage : Stage
  printed : List Feed.Event

inductive Move
  | read
  | input
  | event
  | work
  | answer (reply : Receiver.Reply)
  | finish

def queueCapacity : Nat := 32

def nextLine? (bytes : List UInt8) : Option (List UInt8 × List UInt8) :=
  match bytes with
  | [] => none
  | bytes =>
    let line := bytes.takeWhile (· != 10)
    match bytes.drop line.length with
    | [] => some (line, [])
    | _ :: rest => some (if line.getLast? = some 13 then line.dropLast else line, rest)

def badLine (e : Failure) : Feed.Event :=
  .error s!"Invalid input: {e.message}" false

namespace Session

variable {σ : Type}

def tell (events : List Feed.Event) (s : Session σ) : Session σ :=
  { s with printed := s.printed ++ events }

def onReceiver (r : Receiver σ) (s : Session σ) : Session σ :=
  { s with receiver := r }.tell (Receiver.alertsSince s.receiver.history r.history)

def endReading (s : Session σ) : Session σ :=
  { s with unread := none, queue := s.queue ++ [.quit] }

def readLine (bytes : List UInt8) (s : Session σ) : Session σ :=
  match nextLine? bytes with
  | none => s.endReading
  | some (line, rest) =>
    match String.fromUTF8? ⟨line.toArray⟩ with
    | none => s.endReading
    | some text =>
      match Feed.Request.ofLine text with
      | .error e => { s with unread := some rest }.tell [badLine e]
      | .ok none => { s with unread := some rest }
      | .ok (some .quit) => s.endReading
      | .ok (some request) => { s with unread := some rest, queue := s.queue ++ [request] }

def hear (received : Broadcast.Received Snapshot) (s : Session σ) : Session σ :=
  match received with
  | .event snapshot => s.tell [.registrationChanged snapshot]
  | .lagged _ => s
  | .empty => s
  | .closed => s

def remaining (bus : Broadcast.Bus Snapshot) (position : Nat) : List Snapshot :=
  (bus.drain position).1.takeWhile isEvent |>.filterMap snapshot?
where
  isEvent : Broadcast.Received Snapshot → Bool
    | .event _ => true
    | _ => false
  snapshot? : Broadcast.Received Snapshot → Option Snapshot
    | .event s => some s
    | _ => none

def conclude (s : Session σ) : Session σ :=
  let rest := (remaining s.receiver.bus s.position).map Feed.Event.registrationChanged
  { s with
    position := s.position + rest.length
    stage := .stopped }.tell (rest ++ [Feed.Event.stopped s.receiver.worker.dropped.toNat])

variable [KeyValueStore σ]

def start (r : Receiver σ) (snapshot : Snapshot) (input : List UInt8) : Session σ :=
  ⟨r, r.bus.subscribe, some input, [], .serving, [.ready snapshot]⟩

def act (request : Feed.Request) (s : Session σ) : Session σ :=
  match request with
  | .quit => { s with stage := .closing }
  | request =>
    let (events, r) := s.receiver.apply request
    (s.onReceiver r).tell events

def step? (m : Move) (s : Session σ) : Option (Session σ) :=
  match m with
  | .read =>
    if s.stage = .stopped || queueCapacity < s.queue.length then none
    else s.unread.map fun bytes => s.readLine bytes
  | .input =>
    match s.stage, s.queue with
    | .serving, request :: queue => some ({ s with queue }.act request)
    | _, _ => none
  | .event =>
    if s.stage = .serving then
      match s.receiver.bus.receive s.position with
      | (.empty, _) => none
      | (received, position) => some ({ s with position }.hear received)
    else none
  | .work =>
    if s.stage = .stopped || s.receiver.isStill then none
    else some (s.onReceiver s.receiver.advance)
  | .answer reply =>
    if s.stage = .stopped || s.receiver.inFlight.isNone then none
    else some (s.onReceiver (s.receiver.answer reply))
  | .finish =>
    if s.stage = .closing && s.receiver.worker.idle then some s.conclude else none

def nextMove? (s : Session σ) : Option Move :=
  if !s.receiver.isStill then some .work
  else if s.stage = .closing then some .finish
  else if s.position < s.receiver.published.length then some .event
  else if !s.queue.isEmpty then some .input
  else if s.unread.isSome then some .read
  else none

def runWith {ε : Type} (respond : Receiver.Respond σ ε) :
    Nat → Session σ → ε → Session σ × ε
  | 0, s, env => (s, env)
  | fuel + 1, s, env =>
    if s.stage = .stopped then (s, env)
    else
      match (s.receiver.call?).bind fun call => respond call s.receiver.store env with
      | some (reply, store, env) =>
        let s := { s with receiver := { s.receiver with store } }
        match s.step? (.answer reply) with
        | some s => runWith respond fuel s env
        | none => (s, env)
      | none =>
        match s.nextMove?.bind fun m => s.step? m with
        | some s => runWith respond fuel s env
        | none => (s, env)

def moveBound (input : List UInt8) : Nat :=
  32 * (input.length + 2)

def run {ε : Type} (respond : Receiver.Respond σ ε) (r : Receiver σ) (snapshot : Snapshot)
    (input : List UInt8) (env : ε) : Session σ × ε :=
  runWith respond (moveBound input) (start r snapshot input) env

end Session

end PushKeeper.Daemon
