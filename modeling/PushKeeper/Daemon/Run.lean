import PushKeeper.Daemon.Arguments
import PushKeeper.Daemon.Services
import PushKeeper.Daemon.Session

namespace PushKeeper.Daemon

open Store (Access Backing Disk Mounted)

structure Machine where
  disk : Disk
  environment : List Hook.Setting
  clock : UInt64
  dataDir : String

structure Outcome where
  exitCode : Nat
  printed : List Feed.Event
  note : Option String
  deriving DecidableEq

def failureCode : Nat := 1

def usageCode : Nat := 2

def writeSettings (a : Arguments) (m : Machine) : Outcome × Machine :=
  let path := Files.join a.configDir Settings.fileName
  let (result, tree) := Settings.create m.disk.tree a.configDir
  let m := { m with disk := { m.disk with tree } }
  match result with
  | .ok true => (⟨0, [], some s!"Wrote {path}\n"⟩, m)
  | .ok false => (⟨0, [], some s!"{path} already exists, left unchanged\n"⟩, m)
  | .error _ => (⟨failureCode, [], none⟩, m)

def dataDirectory (given home : Option String) : String :=
  match given.filter Files.isAbsolute, home.filter (· ≠ "") with
  | some dir, _ => dir
  | none, some dir => Files.join dir ".local/share"
  | none, none => "."

def prepareLogs (m : Machine) : Machine :=
  let (_, tree) := m.disk.tree.layDirectories (Files.join m.dataDir "relaypush/logs")
  { m with disk := { m.disk with tree } }

def statePath (a : Arguments) (settings : Settings) : String :=
  a.state.getD (settings.store.resolve a.configDir)

structure Opened where
  backing : Backing
  services : Services
  settings : Settings
  snapshot : Registration.Snapshot

/-- Opens everything a session needs. The state is opened first; it is given up again if something
else is missing. -/
def openAll (a : Arguments) : Access Disk Opened := do
  let settings := Settings.load (← get).tree a.configDir
  let backing ← Backing.open (statePath a settings)
  Store.writing fun disk =>
    let rest : Except Failure Opened := do
      let services ← Services.ofSettings settings.hooks
      let snapshot ← Store.Values.snapshot (⟨backing, disk⟩ : Mounted)
      return ⟨backing, services, settings, snapshot⟩
    match rest with
    | .ok opened => (.ok opened, disk)
    | .error e => (.error e, backing.close disk)

def Opened.receiver (o : Opened) (m : Machine) : Receiver Mounted :=
  .new Receiver.workerName ⟨o.backing, m.disk⟩ m.clock o.settings.fetch.policy
    (.stored o.settings.transport.enabled)

def serve (a : Arguments) (input : List UInt8) (m : Machine) : Outcome × Machine :=
  let m := prepareLogs m
  match (openAll a).on m.disk with
  | (.error e, disk) => (⟨failureCode, [.error e.message e.isFatal], none⟩, { m with disk })
  | (.ok opened, disk) =>
    let m := { m with disk }
    let (session, _) :=
      Session.run opened.services.respond (opened.receiver m) opened.snapshot input m.environment
    let store := session.receiver.store
    (⟨0, session.printed, none⟩, { m with disk := store.backing.close store.disk })

def settingsPaths (a : Arguments) : List String :=
  Files.lineage (Files.join a.configDir Settings.fileName)

def statePaths (a : Arguments) (tree : Files.Tree) : List String :=
  let path := statePath a (Settings.load tree a.configDir)
  Files.lineage path ++ [Files.sidecar path "lock", Files.sidecar path "tmp"]

def run (words : List String) (input : List UInt8) (m : Machine) : Outcome × Machine :=
  match Request.ofWords words with
  | .refused => (⟨usageCode, [], none⟩, m)
  | .help => (⟨0, [], none⟩, m)
  | .start a => if a.init then writeSettings a m else serve a input m

end PushKeeper.Daemon
