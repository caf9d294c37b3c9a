import PushKeeper.Json.Reader

namespace PushKeeper.Fetch

inductive Strategy
  | foreground
  | background
  deriving DecidableEq, Inhabited

namespace Strategy

def label : Strategy → String
  | foreground => "foreground"
  | background => "background"

def isForeground (s : Strategy) : Bool :=
  s == foreground

def table : List (String × Strategy) :=
  [foreground, background].map fun s => (s.label, s)

def read : Json.Reader Strategy :=
  Json.readChoice table

def toJson (s : Strategy) : Json.Value :=
  .string s.label

end Strategy

end PushKeeper.Fetch
