import PushKeeper.Registration.Snapshot

namespace PushKeeper.Feed

open Registration (AlertKind Snapshot)

inductive Event
  | ready (snapshot : Snapshot)
  | registrationChanged (snapshot : Snapshot)
  | alert (kind : AlertKind)
  | error (message : String) (fatal : Bool)
  | stopped (droppedTasks : Nat)
  deriving DecidableEq

namespace Event

def label : Event → String
  | ready _ => "ready"
  | registrationChanged _ => "registration_changed"
  | alert _ => "alert"
  | error .. => "error"
  | stopped _ => "stopped"

def fields : Event → List (String × Json.Value)
  | ready s => s.toMembers
  | registrationChanged s => s.toMembers
  | alert kind => [("kind", kind.toJson)]
  | error message fatal => [("message", .string message), ("fatal", .bool fatal)]
  | stopped n => [("dropped_tasks", .integer n)]

def toJson (e : Event) (time : Int) : Json.Value :=
  .object (("event", .string e.label) :: e.fields ++ [("timestamp", .integer time)])

def render (e : Event) (time : Int) : String :=
  (e.toJson time).render

def line (e : Event) (time : Int) : String :=
  e.render time ++ "\n"

end Event

end PushKeeper.Feed
