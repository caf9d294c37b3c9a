import PushKeeper.Broadcast.Bus

namespace PushKeeper.Broadcast

structure Audience (ε : Type) where
  bus : Bus ε
  members : List (String × Nat)

namespace Audience

variable {ε : Type}

def ofBus (bus : Bus ε) : Audience ε := ⟨bus, []⟩

def count (a : Audience ε) : Nat := a.members.length

def has (a : Audience ε) (name : String) : Bool := (a.members.lookup name).isSome

def leave (a : Audience ε) (name : String) : Audience ε :=
  { a with members := a.members.filter (·.1 ≠ name) }

def join (a : Audience ε) (name : String) : Audience ε :=
  { a.leave name with members := (name, a.bus.subscribe) :: (a.leave name).members }

def publish (a : Audience ε) (e : ε) : Audience ε :=
  { a with bus := a.bus.publish e }

def work {α : Type} (a : Audience ε) (name : String) (ask : Bus ε → Nat → α × Nat) :
    Option (α × Audience ε) :=
  (a.members.lookup name).map fun position =>
    let (answer, position) := ask a.bus position
    (answer, { a with
      members := a.members.map fun (n, p) => if n = name then (n, position) else (n, p) })

def receive (a : Audience ε) (name : String) : Option (Received ε × Audience ε) :=
  a.work name Bus.receive

def drain (a : Audience ε) (name : String) : Option (List (Received ε) × Audience ε) :=
  a.work name Bus.drain

def close (a : Audience ε) : Audience ε := { a with bus := a.bus.close }

end Audience

end PushKeeper.Broadcast
