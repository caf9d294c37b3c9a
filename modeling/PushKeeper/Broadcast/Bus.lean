
namespace PushKeeper.Broadcast

/-- A bus with everything ever sent on it, oldest first. Only the newest `capacity` events are kept
for receivers. -/
structure Bus (ε : Type) where
  capacity : Nat
  sent : List ε
  closed : Bool
  deriving DecidableEq

inductive Received (ε : Type)
  | event (e : ε)
  | lagged (missed : Nat)
  | empty
  | closed
  deriving DecidableEq

namespace Received

def isLast {ε : Type} : Received ε → Bool
  | empty => true
  | closed => true
  | _ => false

end Received

namespace Bus

variable {ε : Type}

def defaultCapacity : Nat := 64

def roundCapacity (n : Nat) : Nat :=
  if n ≤ 1 then 1 else 2 * roundCapacity ((n + 1) / 2)
termination_by n
decreasing_by omega

def new (capacity : Nat) : Bus ε := ⟨roundCapacity capacity, [], false⟩

instance : Inhabited (Bus ε) := ⟨new defaultCapacity⟩

def publish (b : Bus ε) (e : ε) : Bus ε :=
  { b with sent := b.sent ++ [e] }

def subscribe (b : Bus ε) : Nat := b.sent.length

def oldest (b : Bus ε) : Nat := b.sent.length - b.capacity

def receive (b : Bus ε) (position : Nat) : Received ε × Nat :=
  if position < b.oldest then (.lagged (b.oldest - position), b.oldest)
  else
    match b.sent[position]? with
    | some e => (.event e, position + 1)
    | none => (if b.closed then .closed else .empty, position)

def drainWith (b : Bus ε) (position : Nat) : Nat → List (Received ε) × Nat
  | 0 => ([], position)
  | fuel + 1 =>
    let (r, position) := b.receive position
    if r.isLast then ([r], position)
    else
      let (rs, position) := b.drainWith position fuel
      (r :: rs, position)

/-- Everything the receiver at a position can get. It asks once for each event, perhaps once for
those it missed, and once more. -/
def drain (b : Bus ε) (position : Nat) : List (Received ε) × Nat :=
  b.drainWith position (b.sent.length + 2)

def close (b : Bus ε) : Bus ε := { b with closed := true }

end Bus

end PushKeeper.Broadcast
