import PushKeeper.Registration.Status
import PushKeeper.Json.Printer

namespace PushKeeper.Registration

open Json (Fault Reader)

/-- The address at which the transport delivers. It is opaque text. -/
structure Endpoint where
  address : String
  deriving DecidableEq, Inhabited

namespace Endpoint

def read : Reader Endpoint := fun cs => do
  let (s, cs) ← Json.readString Json.aString cs
  return (⟨s⟩, cs)

def toJson (e : Endpoint) : Json.Value :=
  .string e.address

end Endpoint

structure Snapshot where
  endpoint : Option Endpoint
  status : Status
  deriving DecidableEq, Inhabited

namespace Snapshot

def toMembers (s : Snapshot) : List (String × Json.Value) :=
  [("endpoint", (s.endpoint.map Endpoint.toJson).getD .null), ("status", s.status.toJson)]

def toJson (s : Snapshot) : Json.Value :=
  .object s.toMembers

def readEndpoint : Reader (Option Endpoint) := fun cs =>
  match Json.skipSpace cs with
  | 'n' :: cs => do return (none, ← Json.afterWord ['u', 'l', 'l'] cs)
  | cs => do
    let (e, cs) ← Endpoint.read cs
    return (some e, cs)

def readElements (cs : List Char) : Except Fault (Snapshot × List Char) := do
  let short (n : Nat) : Except Fault (Snapshot × List Char) :=
    .error (.mismatch (.invalidLength n "struct RegistrationSnapshot with 2 elements"))
  match Json.opened ']' cs with
  | (true, _) => short 0
  | (false, cs) =>
    let (endpoint, cs) ← readEndpoint cs
    match ← Json.more ']' cs with
    | (false, _) => short 1
    | (true, cs) =>
      if (Json.opened ']' cs).1 then .error .malformed else
        let (status, cs) ← Status.read cs
        match Json.skipSpace cs with
        | ']' :: cs => return (⟨endpoint, status⟩, cs)
        | _ => .error .malformed

def readMembers (fuel : Nat) (endpoint : Option (Option Endpoint)) (status : Option Status)
    (cs : List Char) : Except Fault (Snapshot × List Char) :=
  match fuel with
  | 0 => .error .malformed
  | fuel + 1 => do
    let (name, cs) ← Json.memberName cs
    let (endpoint, status, cs) ←
      if name = "endpoint" then
        if endpoint.isSome then .error (.mismatch (.duplicateField name)) else
          let (e, cs) ← readEndpoint (← Json.colon cs)
          pure (some e, status, cs)
      else if name = "status" then
        if status.isSome then .error (.mismatch (.duplicateField name)) else
          let (s, cs) ← Status.read (← Json.colon cs)
          pure (endpoint, some s, cs)
      else pure (endpoint, status, ← Json.skip (← Json.colon cs))
    match ← Json.more '\x7d' cs with
    | (true, cs) => readMembers fuel endpoint status cs
    | (false, cs) =>
      match status with
      | some status => return (⟨endpoint.join, status⟩, cs)
      | none => .error (.mismatch (.missingField "status"))

def read : Reader Snapshot := fun cs =>
  match Json.skipSpace cs with
  | '[' :: cs => readElements cs
  | '\x7b' :: cs =>
    match Json.opened '\x7d' cs with
    | (true, _) => .error (.mismatch (.missingField "status"))
    | (false, cs) => readMembers cs.length none none cs
  | cs => .error (Json.unexpected "struct RegistrationSnapshot" cs)

end Snapshot

inductive AlertKind
  | endpointChangedAirGapped
  | endpointChangedError
  | registrationFailed
  deriving DecidableEq

namespace AlertKind

def all : List AlertKind :=
  [endpointChangedAirGapped, endpointChangedError, registrationFailed]

def label : AlertKind → String
  | endpointChangedAirGapped => "endpoint_changed_air_gapped"
  | endpointChangedError => "endpoint_changed_error"
  | registrationFailed => "registration_failed"

def table : List (String × AlertKind) :=
  all.map fun a => (a.label, a)

def read : Reader AlertKind :=
  Json.readChoice table

def toJson (a : AlertKind) : Json.Value :=
  .string a.label

end AlertKind

end PushKeeper.Registration
