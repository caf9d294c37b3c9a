import PushKeeper.Hook.FetchService
import PushKeeper.Hook.Relay
import PushKeeper.Receiver.Work
import PushKeeper.Shell.System
import PushKeeper.Store.File

namespace PushKeeper.Daemon

open Receiver (Call Reply)

structure Services where
  relay : Hook.Relay
  fetch : Hook.FetchService
  deriving DecidableEq

namespace Services

def ofSettings (hooks : Settings.Hooks) : Except Failure Services := do
  return ⟨← Hook.Relay.ofSettings hooks, ← Hook.FetchService.ofSettings hooks⟩

def reply {ω : Type} [Hook.Host ω] (s : Services) (call : Call) (w : ω) : Reply × ω :=
  match call with
  | .register endpoint =>
    let (outcome, w) := s.relay.register endpoint w
    (.registered outcome, w)
  | .enqueue strategy =>
    let (answer, w) := s.fetch.request strategy w
    (.enqueued answer, w)
  | .legacyPull =>
    let (answer, w) := s.fetch.pull w
    (.pulled answer, w)

/-- Answers every call at once, among the files of the store; the commands get the variables of the
daemon. -/
def respond (s : Services) : Receiver.Respond Store.Mounted (List Hook.Setting) :=
  fun call store environment =>
    let (reply, system) := s.reply call (⟨store.disk.tree, environment⟩ : Shell.System)
    some (reply, { store with disk := { store.disk with tree := system.tree } }, environment)

end Services

end PushKeeper.Daemon
