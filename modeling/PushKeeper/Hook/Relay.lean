import PushKeeper.Hook.Command
import PushKeeper.Registration.Snapshot
import PushKeeper.Settings.Basic

namespace PushKeeper.Hook

open Registration (Endpoint RelayError Status)

def endpointVariable : String := "RELAYPUSH_ENDPOINT"

def rejectedCode : Nat := 2

structure Relay where
  command : Command
  deriving DecidableEq

namespace Relay

def ofSettings (hooks : Settings.Hooks) : Except Failure Relay :=
  Relay.mk <$> Command.ofWords "register" hooks.register

def judge (run : Except Failure Output) : Except RelayError Unit :=
  match run with
  | .error e => .error (.unreachable e.message)
  | .ok o =>
    if o.code = some 0 then .ok ()
    else if o.code = some rejectedCode then .error (.rejected o.stderr)
    else .error (.unreachable s!"register hook exited with {showExit o.code}: {o.stderr}")

variable {ω : Type} [Host ω]

/-- Registers an endpoint. Without one there is nothing to run. -/
def register (r : Relay) (endpoint : Option Endpoint) (w : ω) : Status × ω :=
  match endpoint with
  | none => (.missingEndpoint, w)
  | some e =>
    let (run, w) := r.command.run [(endpointVariable, e.address)] w
    (.ofRelay (judge run), w)

theorem register_ne_airGapped (r : Relay) (endpoint : Option Endpoint) (w : ω) :
    (r.register endpoint w).1 ≠ .airGapped := by
  cases endpoint with
  | none => simp [register]
  | some e => exact Status.ofRelay_ne_airGapped _

end Relay

end PushKeeper.Hook
