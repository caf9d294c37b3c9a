import PushKeeper.Feed.Event
import PushKeeper.Feed.Request
import PushKeeper.Receiver.Registration

namespace PushKeeper.Receiver

open Store (KeyValueStore)

def switchFailed (e : Failure) : Feed.Event :=
  .error s!"Air-gapped switch failed: {e.message}" false

def alertEvents (notices : List Notice) : List Feed.Event :=
  notices.filterMap fun
    | .published _ => none
    | .alerted k => some (.alert k)

def alertsSince (before after : List Notice) : List Feed.Event :=
  alertEvents (after.drop before.length)

variable {σ : Type} [KeyValueStore σ]

/-- Acts on a request; gives what the host is told besides alerts. -/
def apply (request : Feed.Request) (r : Receiver σ) : List Feed.Event × Receiver σ :=
  match request with
  | .retry => ([], r.retry)
  | .airGapped enabled =>
    match (setAirGapped enabled).on r with
    | (.ok (), r) => ([], r)
    | (.error e, r) => ([switchFailed e], r)
  | .quit => ([], r)
  | request =>
    match request.toTransportEvent? with
    | some event => ([], r.handle event)
    | none => ([], r)

end PushKeeper.Receiver
