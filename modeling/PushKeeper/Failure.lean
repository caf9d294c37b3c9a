import PushKeeper.Files.Tree
import PushKeeper.Json.Fault

namespace PushKeeper

inductive StoreAccess
  | get
  | put
  | remove
  deriving DecidableEq

def StoreAccess.label : StoreAccess → String
  | .get => "get"
  | .put => "put"
  | .remove => "remove"

inductive StoreFault
  | createDirectory (path : String) (cause : Files.Fault)
  | openLock (path : String) (cause : Files.Fault)
  | inUse (path : String)
  | writeTemporary (path : String) (cause : Files.Fault)
  | replace (path : String) (cause : Files.Fault)
  | refused (access : StoreAccess) (key : String)
  | other (text : String)
  deriving DecidableEq

def StoreFault.message : StoreFault → String
  | .createDirectory path cause => s!"Failed to create {path}: {cause.message}"
  | .openLock path cause => s!"Failed to open {path}: {cause.message}"
  | .inUse path => s!"State file {path} is in use by another process"
  | .writeTemporary path cause => s!"Failed to write {path}: {cause.message}"
  | .replace path cause => s!"Failed to replace {path}: {cause.message}"
  | .refused access key => s!"{access.label} {key} failed"
  | .other text => text

inductive SpawnFault
  | program (cause : Files.Fault)
  | nulInArguments
  | other (text : String)
  deriving DecidableEq

def SpawnFault.message : SpawnFault → String
  | .program cause => cause.message
  | .nulInArguments => "nul byte found in provided data"
  | .other text => text

def showExit : Option Nat → String
  | some code => s!"Some({code})"
  | none => "None"

inductive HookFault
  | pullExited (code : Option Nat) (stderr : String)
  | other (text : String)
  deriving DecidableEq

def HookFault.message : HookFault → String
  | .pullExited code stderr => s!"legacy pull exited with {showExit code}: {stderr}"
  | .other text => text

inductive ConfigFault
  | createDirectory (path : String) (cause : Files.Fault)
  | writeFile (cause : Files.Fault)
  | other (text : String)
  deriving DecidableEq

def ConfigFault.message : ConfigFault → String
  | .createDirectory path cause => s!"Failed to create {path}: {cause.message}"
  | .writeFile cause => s!"Failed to write config.toml: {cause.message}"
  | .other text => text

inductive ReadFault
  | files (cause : Files.Fault)
  | other (text : String)
  deriving DecidableEq

def ReadFault.message : ReadFault → String
  | .files cause => cause.message
  | .other text => text

/-- Everything that can go wrong. -/
inductive Failure
  | io (cause : ReadFault)
  | json (cause : Json.Fault)
  | store (cause : StoreFault)
  | corruptState (path : String)
  | hookNotConfigured (name : String)
  | hookSpawn (name : String) (cause : SpawnFault)
  | hook (cause : HookFault)
  | config (cause : ConfigFault)
  deriving DecidableEq

namespace Failure

def message : Failure → String
  | io cause => s!"IO error: {cause.message}"
  | json cause => s!"JSON parsing error: {cause.message}"
  | store cause => s!"Store error: {cause.message}"
  | corruptState path => s!"Corrupt state file: {path}"
  | hookNotConfigured name => s!"Hook '{name}' is not configured"
  | hookSpawn name cause => s!"Failed to spawn hook '{name}': {cause.message}"
  | hook cause => s!"Hook error: {cause.message}"
  | config cause => s!"Configuration error: {cause.message}"

def isFatal : Failure → Bool
  | hookNotConfigured _ => true
  | corruptState _ => true
  | _ => false

end Failure

end PushKeeper
