import PushKeeper.Files.Tree
import PushKeeper.Registration.Snapshot

namespace PushKeeper.Feed

open Registration (Endpoint)

inductive TransportEvent
  | newEndpoint (endpoint : Endpoint) (instanceName : String)
  | registrationFailed (instanceName : String)
  | unregistered (instanceName : String)
  | message (payload : ByteArray) (instanceName : String)
  deriving DecidableEq

namespace TransportEvent

def label : TransportEvent → String
  | newEndpoint .. => "new_endpoint"
  | registrationFailed .. => "registration_failed"
  | unregistered .. => "unregistered"
  | message .. => "message"

def instanceName : TransportEvent → String
  | newEndpoint _ name => name
  | registrationFailed name => name
  | unregistered name => name
  | message _ name => name

end TransportEvent

end PushKeeper.Feed
