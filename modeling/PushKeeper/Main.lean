import PushKeeper.Daemon.Run
import PushKeeper.Files.Change
import PushKeeper.Shell.Image
import Std.Time.DateTime.Timestamp

namespace PushKeeper.CommandLine

def load (tree : Files.Tree) (path : String) : IO Files.Tree := do
  let place := (← IO.currentDir) / path
  let loaded : Except Files.Fault Files.Tree ← do
    if ← place.isDir then pure (tree.makeDirectories path)
    else
      match ← (IO.FS.readBinFile place).toBaseIO with
      | .ok bytes => pure (tree.write path bytes)
      | .error _ => pure (.ok tree)
  return loaded.toOption.getD tree

def perform : Files.Change → IO Unit
  | .makeDirectory path => IO.FS.createDirAll path
  | .write path bytes => IO.FS.writeBinFile path bytes
  | .remove path => IO.FS.removeFile path

partial def readRest (input : IO.FS.Stream) (before : ByteArray) : IO ByteArray := do
  let more ← input.read 65536
  if more.isEmpty then return before else readRest input (before ++ more)

def machine : IO Daemon.Machine := do
  let here := (← IO.currentDir).toString
  let tree := (Files.Tree.empty.makeDirectories here).toOption.getD .empty
  let tree := Shell.Image.furnish tree
  let now := (← Std.Time.Timestamp.now).toMillisecondsSinceUnixEpoch
  let path ← IO.getEnv "PATH"
  return {
    disk := ⟨{ tree with here := (Files.segments here).filter (!Files.isVoid ·) }, []⟩
    environment := path.toList.map ("PATH", ·)
    clock := .ofNat now.val.toNat
    dataDir := Daemon.dataDirectory (← IO.getEnv "XDG_DATA_HOME") (← IO.getEnv "HOME") }

def run (words : List String) (m : Daemon.Machine) : IO UInt32 := do
  let mut tree := m.disk.tree
  let mut input := ByteArray.empty
  if let .start a := Daemon.Request.ofWords words then
    for path in Daemon.settingsPaths a do
      tree ← load tree path
    for path in Daemon.statePaths a tree do
      tree ← load tree path
    unless a.init do
      input ← readRest (← IO.getStdin) .empty
  let (outcome, after) :=
    Daemon.run words input.toList { m with disk := { m.disk with tree } }
  for change in tree.changesTo after.disk.tree do
    perform change
  for event in outcome.printed do
    IO.print (event.line m.clock.toNat)
  if let some note := outcome.note then
    IO.eprint note
  return .ofNat outcome.exitCode

end PushKeeper.CommandLine

def main (words : List String) : IO UInt32 := do
  match PushKeeper.Daemon.Request.ofWords words with
  | .help => IO.print PushKeeper.Daemon.usage
  | .refused => IO.eprint PushKeeper.Daemon.usage
  | .start _ => pure ()
  PushKeeper.CommandLine.run words (← PushKeeper.CommandLine.machine)
