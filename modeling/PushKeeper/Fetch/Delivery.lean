import PushKeeper.Store.Values

namespace PushKeeper.Fetch

inductive Delivery
  | fixed (active : Bool)
  | stored (enabled : Bool)
  deriving DecidableEq

namespace Delivery

def delivers (s : Registration.Snapshot) : Bool :=
  s.endpoint.isSome && (s.status == .registered || s.status == .airGapped)

/-- The transport delivers now. A store that cannot be read counts as one without registration. -/
def isActive {σ : Type} [Store.KeyValueStore σ] (d : Delivery) (store : σ) : Bool :=
  match d with
  | fixed active => active
  | stored enabled =>
    enabled &&
      match Store.Values.snapshot store with
      | .ok s => delivers s
      | .error _ => false

end Delivery

end PushKeeper.Fetch
