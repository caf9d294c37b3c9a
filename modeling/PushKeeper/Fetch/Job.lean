import PushKeeper.Fetch.Policy
import PushKeeper.Store.Values

namespace PushKeeper.Fetch

structure Outcome where
  strategy : Strategy
  enqueued : Bool
  fellBack : Bool
  deriving DecidableEq

inductive Progress
  | enqueuing (strategy : Strategy)
  | pulling (strategy : Strategy)
  | finished (outcome : Outcome)
  deriving DecidableEq

namespace Progress

variable {σ : Type} [Store.KeyValueStore σ]

/-- When the last foreground fetch was; an unreadable stamp counts as none. -/
def lastStamp (store : σ) : Nat :=
  match Store.Values.lastFetch store with
  | .ok time => time
  | .error _ => 0

/-- The strategy of a fetch at a time. A clock that went back counts as no time elapsed. -/
def strategyAt (policy : Policy) (now : Nat) (store : σ) : Strategy :=
  policy.select (now - lastStamp store)

def stamp (strategy : Strategy) (now : Nat) (store : σ) : σ :=
  if strategy.isForeground then ((Store.Values.setLastFetch now).on store).2 else store

def start (policy : Policy) (now : Nat) (store : σ) : Progress × σ :=
  let strategy := strategyAt policy now store
  (.enqueuing strategy, stamp strategy now store)

def afterEnqueue (strategy : Strategy) (answer : Except Failure Bool) : Progress :=
  match answer with
  | .ok true => .finished ⟨strategy, true, false⟩
  | .ok false => .pulling strategy
  | .error _ => .pulling strategy

def afterPull (strategy : Strategy) (_answer : Except Failure Unit) : Progress :=
  .finished ⟨strategy, false, true⟩

end Progress

end PushKeeper.Fetch
