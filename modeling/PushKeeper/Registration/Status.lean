import PushKeeper.Json.Reader

namespace PushKeeper.Registration

inductive Status
  | unconfigured
  | airGapped
  | registered
  | internalError
  | missingEndpoint
  deriving DecidableEq, Inhabited

namespace Status

def all : List Status :=
  [unconfigured, airGapped, registered, internalError, missingEndpoint]

def initial : Status := unconfigured

def ordinal : Status → Nat
  | unconfigured => 0
  | airGapped => 1
  | registered => 2
  | internalError => 3
  | missingEndpoint => 4

def ofOrdinal (n : Nat) : Status :=
  all.getD n initial

def label : Status → String
  | unconfigured => "unconfigured"
  | airGapped => "air_gapped"
  | registered => "registered"
  | internalError => "internal_error"
  | missingEndpoint => "missing_endpoint"

def diagnosticName : Status → String
  | unconfigured => "Unconfigured"
  | airGapped => "AirGapped"
  | registered => "Registered"
  | internalError => "InternalError"
  | missingEndpoint => "MissingEndpoint"

def table : List (String × Status) :=
  all.map fun s => (s.label, s)

def read : Json.Reader Status :=
  Json.readChoice table

def toJson (s : Status) : Json.Value :=
  .string s.label

@[simp] theorem ofOrdinal_ordinal (s : Status) : ofOrdinal s.ordinal = s := by
  cases s <;> rfl

theorem ofOrdinal_eq_initial {n : Nat} (h : 5 ≤ n) : ofOrdinal n = initial := by
  have : all[n]? = none := List.getElem?_eq_none (by simpa [all] using h)
  simp [ofOrdinal, List.getD_eq_getElem?_getD, this]

@[simp] theorem mem_all (s : Status) : s ∈ all := by
  cases s <;> simp [all]

end Status

inductive RelayError
  | unreachable (detail : String)
  | rejected (detail : String)
  deriving DecidableEq

namespace RelayError

def message : RelayError → String
  | unreachable detail => s!"relay unreachable: {detail}"
  | rejected detail => s!"relay rejected endpoint: {detail}"

/-- A rejected endpoint is missing at the relay; everything else is an internal error. -/
def status : RelayError → Status
  | unreachable _ => .internalError
  | rejected _ => .missingEndpoint

end RelayError

def Status.ofRelay : Except RelayError Unit → Status
  | .ok () => .registered
  | .error e => e.status

theorem Status.ofRelay_ne_airGapped (result : Except RelayError Unit) :
    ofRelay result ≠ .airGapped := by
  rcases result with (_ | _) | _ <;> simp [ofRelay, RelayError.status]

end PushKeeper.Registration
