import PushKeeper.Feed.Transport
import PushKeeper.Failure

namespace PushKeeper.Feed

open Json (Fault Mismatch Reader Value)
open Registration (Endpoint)

inductive Request
  | newEndpoint (endpoint : Endpoint) (instanceName : String)
  | registrationFailed (instanceName : String)
  | unregistered (instanceName : String)
  | message (payload : String) (instanceName : String)
  | retry
  | airGapped (enabled : Bool)
  | quit
  deriving DecidableEq

inductive Tag
  | newEndpoint
  | registrationFailed
  | unregistered
  | message
  | retry
  | airGapped
  | quit
  deriving DecidableEq

inductive Datum
  | text (s : String)
  | flag (b : Bool)
  deriving DecidableEq

inductive FieldType
  | text
  | flag
  deriving DecidableEq

/-- A field of a request, with the value it has when left out. -/
structure Field where
  name : String
  type : FieldType
  absent : Option Datum
  deriving DecidableEq

def defaultInstance : String := "default"

namespace Field

def instanceName : Field := ⟨"instance", .text, some (.text defaultInstance)⟩

def endpoint : Field := ⟨"endpoint", .text, none⟩

def payload : Field := ⟨"payload", .text, some (.text "")⟩

def enabled : Field := ⟨"enabled", .flag, none⟩

def read (f : Field) (v : Value) : Except Fault Datum :=
  match f.type, v with
  | .text, .string s => .ok (.text s)
  | .flag, .bool b => .ok (.flag b)
  | .text, v => .error (.mismatch (.invalidType v.found Json.aString))
  | .flag, v => .error (.mismatch (.invalidType v.found "a boolean"))

end Field

namespace Tag

def all : List Tag :=
  [newEndpoint, registrationFailed, unregistered, message, retry, airGapped, quit]

def label : Tag → String
  | newEndpoint => "new_endpoint"
  | registrationFailed => "registration_failed"
  | unregistered => "unregistered"
  | message => "message"
  | retry => "retry"
  | airGapped => "air_gapped"
  | quit => "quit"

def diagnosticName : Tag → String
  | newEndpoint => "NewEndpoint"
  | registrationFailed => "RegistrationFailed"
  | unregistered => "Unregistered"
  | message => "Message"
  | retry => "Retry"
  | airGapped => "AirGapped"
  | quit => "Quit"

def table : List (String × Tag) :=
  all.map fun t => (t.label, t)

def fields : Tag → List Field
  | newEndpoint => [.endpoint, .instanceName]
  | registrationFailed => [.instanceName]
  | unregistered => [.instanceName]
  | message => [.payload, .instanceName]
  | retry => []
  | airGapped => [.enabled]
  | quit => []

def build? : Tag → List Datum → Option Request
  | newEndpoint, [.text e, .text i] => some (.newEndpoint ⟨e⟩ i)
  | registrationFailed, [.text i] => some (.registrationFailed i)
  | unregistered, [.text i] => some (.unregistered i)
  | message, [.text p, .text i] => some (.message p i)
  | retry, [] => some .retry
  | airGapped, [.flag b] => some (.airGapped b)
  | quit, [] => some .quit
  | _, _ => none

def elements (n : Nat) : String :=
  if n = 1 then "1 element" else s!"{n} elements"

def ofElements (tag : Tag) (index : Nat) : List Field → List Value → Except Fault (List Datum)
  | [], [] => .ok []
  | [], rest =>
    .error (.mismatch (.invalidLength (index + rest.length) (elements index ++ " in sequence")))
  | f :: fs, [] =>
    match f.absent with
    | some d => return d :: (← ofElements tag index fs [])
    | none =>
      .error (.mismatch (.invalidLength index
        s!"struct variant HeadlessInput::{tag.diagnosticName} with {elements tag.fields.length}"))
  | f :: fs, v :: vs => do
    let d ← f.read v
    return d :: (← ofElements tag (index + 1) fs vs)

def gather (fields : List Field) (found : List (String × Datum)) :
    List (String × Value) → Except Fault (List (String × Datum))
  | [] => .ok found
  | (name, v) :: rest =>
    match fields.find? (·.name = name) with
    | none => gather fields found rest
    | some f =>
      if (found.lookup name).isSome then .error (.mismatch (.duplicateField name))
      else do gather fields ((name, ← f.read v) :: found) rest

def complete (found : List (String × Datum)) : List Field → Except Fault (List Datum)
  | [] => .ok []
  | f :: fs =>
    match (found.lookup f.name).or f.absent with
    | some d => return d :: (← complete found fs)
    | none => .error (.mismatch (.missingField f.name))

def ofMembers (tag : Tag) (members : List (String × Value)) : Except Fault (List Datum) := do
  complete (← gather tag.fields [] members) tag.fields

end Tag

def tagName : String := "event"

def readTaggedMember (depth : Nat) (tag : Option Tag) (members : List (String × Value)) (cs : List Char) :
    Except Fault ((Option Tag × List (String × Value)) × List Char) := do
  let (name, cs) ← Json.memberName cs
  if name = tagName then
    if tag.isSome then .error (.mismatch (.duplicateField tagName)) else
      let (t, cs) ← Json.readVariant Tag.table (← Json.colon cs)
      return ((some t, members), cs)
  else
    let (v, cs) ← Json.value depth (← Json.colon cs)
    return ((tag, members ++ [(name, v)]), cs)

def readTagged (fuel depth : Nat) (tag : Option Tag) (members : List (String × Value))
    (cs : List Char) : Except Fault ((Tag × List (String × Value)) × List Char) :=
  match fuel with
  | 0 => .error .malformed
  | fuel + 1 => do
    let ((tag, members), cs) ← readTaggedMember depth tag members cs
    match ← Json.more '\x7d' cs with
    | (true, cs) => readTagged fuel depth tag members cs
    | (false, cs) =>
      match tag with
      | some tag => return ((tag, members), cs)
      | none => .error (.mismatch (.missingField tagName))

def readListed (depth : Nat) (cs : List Char) : Except Fault ((Tag × List Value) × List Char) := do
  let (tag, cs) ← Json.readVariant Tag.table cs
  match ← Json.more ']' cs with
  | (true, cs) =>
    let (items, cs) ← Json.itemsWith (2 * cs.length + 2) depth cs
    return ((tag, items), cs)
  | (false, cs) => return ((tag, []), cs)

namespace Request

def ofData (tag : Tag) (data : List Datum) : Except Fault Request :=
  match tag.build? data with
  | some r => .ok r
  | none => .error .malformed

def read : Reader Request := fun cs =>
  match Json.skipSpace cs with
  | '[' :: cs => do
    let depth ← Json.enter Json.fullDepth
    match Json.opened ']' cs with
    | (true, _) => .error (.mismatch (.missingField tagName))
    | (false, cs) =>
      let ((tag, items), cs) ← readListed depth cs
      return (← ofData tag (← tag.ofElements 0 tag.fields items), cs)
  | '\x7b' :: cs => do
    let depth ← Json.enter Json.fullDepth
    match Json.opened '\x7d' cs with
    | (true, _) => .error (.mismatch (.missingField tagName))
    | (false, cs) =>
      let ((tag, members), cs) ← readTagged cs.length depth none [] cs
      return (← ofData tag (← tag.ofMembers members), cs)
  | cs => .error (Json.unexpected "internally tagged enum HeadlessInput" cs)

/-- The request of a line; nothing for a blank line. -/
def ofLine (line : String) : Except Failure (Option Request) :=
  let trimmed := Text.trim line
  if trimmed.isEmpty then .ok none
  else
    match Json.decode read trimmed with
    | .ok r => .ok (some r)
    | .error fault => .error (.json fault)

def toTransportEvent? : Request → Option TransportEvent
  | newEndpoint endpoint name => some (.newEndpoint endpoint name)
  | registrationFailed name => some (.registrationFailed name)
  | unregistered name => some (.unregistered name)
  | message payload name => some (.message payload.toUTF8 name)
  | retry => none
  | airGapped _ => none
  | quit => none

end Request

end PushKeeper.Feed
