import PushKeeper.Fetch.Strategy
import PushKeeper.Hook.Command
import PushKeeper.Settings.Basic

namespace PushKeeper.Hook

def strategyVariable : String := "RELAYPUSH_FETCH"

structure FetchService where
  enqueue : Command
  legacyPull : Command
  deriving DecidableEq

namespace FetchService

def ofSettings (hooks : Settings.Hooks) : Except Failure FetchService := do
  return ⟨← Command.ofWords "enqueue_fetch" hooks.enqueueFetch,
    ← Command.ofWords "legacy_pull" hooks.legacyPull⟩

variable {ω : Type} [Host ω]

def request (f : FetchService) (strategy : Fetch.Strategy) (w : ω) : Except Failure Bool × ω :=
  let (run, w) := f.enqueue.run [(strategyVariable, strategy.label)] w
  (run.map Output.succeeded, w)

def pullResult (run : Except Failure Output) : Except Failure Unit :=
  match run with
  | .error e => .error e
  | .ok o => if o.succeeded then .ok () else .error (.hook (.pullExited o.code o.stderr))

def pull (f : FetchService) (w : ω) : Except Failure Unit × ω :=
  let (run, w) := f.legacyPull.run [] w
  (pullResult run, w)

end FetchService

end PushKeeper.Hook
