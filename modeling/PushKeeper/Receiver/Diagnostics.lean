import PushKeeper.Receiver.Basic

namespace PushKeeper.Receiver

variable {σ : Type}

def describeWith (title : String) (r : Receiver σ) : String :=
  title ++ " \x7b executor: " ++ r.worker.describe ++ ", .. \x7d"

def describe (r : Receiver σ) : String :=
  r.describeWith "PushReceiver"

def describeRegistration (r : Receiver σ) : String :=
  r.describeWith "RegistrationMachine"

def describeDispatch (r : Receiver σ) : String :=
  "FetchDispatcher \x7b policy: " ++ r.policy.describe ++ ", .. \x7d"

end PushKeeper.Receiver
