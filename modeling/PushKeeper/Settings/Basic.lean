import PushKeeper.Fetch.Policy
import PushKeeper.Files.Path

namespace PushKeeper

namespace Settings

def usualSwitch : Bool := true

def usualCooldownSeconds : Nat := 180

def usualPath : String := "state.json"

structure Transport where
  enabled : Bool := true
  deriving DecidableEq, Inhabited

structure Fetching where
  foregroundMandatory : Bool := false
  platformRequiresForeground : Bool := true
  cooldownSeconds : Nat := usualCooldownSeconds
  deriving DecidableEq

/-- Commands to run, each as its words; no words stand for no command. -/
structure Hooks where
  register : List String := []
  enqueueFetch : List String := []
  legacyPull : List String := []
  deriving DecidableEq

structure Storage where
  path : String := usualPath
  deriving DecidableEq

end Settings

/-- The settings of the daemon. Those of a group have these values where the group is not given; where only one of
them is not given, its value comes from its reader. -/
structure Settings where
  transport : Settings.Transport := {}
  fetch : Settings.Fetching := {}
  hooks : Settings.Hooks := {}
  store : Settings.Storage := {}
  deriving DecidableEq

namespace Settings

def standard : Settings := {}

instance : Inhabited Settings := ⟨standard⟩

def Fetching.policy (f : Fetching) : Fetch.Policy :=
  ⟨f.foregroundMandatory, f.platformRequiresForeground, 1000 * f.cooldownSeconds⟩

theorem policy_standard : standard.fetch.policy = .standard := rfl

def Storage.resolve (s : Storage) (dir : String) : String :=
  Files.join dir s.path

end Settings

end PushKeeper
