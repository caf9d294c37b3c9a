import PushKeeper.Failure
import PushKeeper.Text.Blank
import PushKeeper.Text.Utf8

namespace PushKeeper.Hook

abbrev Setting := String × String

/-- How a program ended; one that a signal ended has no exit code. -/
structure Finished where
  code : Option Nat
  stderr : List UInt8
  deriving DecidableEq

class Host (ω : Type) where
  launch : (program : String) → (arguments : List String) → List Setting → ω →
    Except SpawnFault Finished × ω

structure Command where
  name : String
  program : String
  arguments : List String
  deriving DecidableEq

structure Output where
  code : Option Nat
  stderr : String
  deriving DecidableEq

def Output.succeeded (o : Output) : Bool := o.code == some 0

def Output.ofFinished (f : Finished) : Output :=
  ⟨f.code, Text.trim (Text.Utf8.decodeLossy f.stderr)⟩

namespace Command

/-- The command of some words. Without words, or with a blank one in front, none is configured. -/
def ofWords (name : String) (words : List String) : Except Failure Command :=
  match words with
  | [] => .error (.hookNotConfigured name)
  | program :: arguments =>
    if Text.isBlankText program then .error (.hookNotConfigured name)
    else .ok ⟨name, program, arguments⟩

variable {ω : Type} [Host ω]

/-- Runs a command. Only that it could not be started is a failure. -/
def run (c : Command) (settings : List Setting) (w : ω) : Except Failure Output × ω :=
  match Host.launch c.program c.arguments settings w with
  | (.ok f, w) => (.ok (.ofFinished f), w)
  | (.error cause, w) => (.error (.hookSpawn c.name cause), w)

end Command

end PushKeeper.Hook
