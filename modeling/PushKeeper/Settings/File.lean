import PushKeeper.Failure
import PushKeeper.Settings.Reader
import PushKeeper.Toml.Document

namespace PushKeeper.Settings

def fileName : String := "config.toml"

def defaultDirectory : String := ".relaypush"

def template : List String := [
  "# relaypush configuration",
  "",
  "[transport]",
  "enabled = true                  # Deliver through the alternate transport",
  "",
  "[fetch]",
  "foreground_mandatory = false    # Foreground fetch for every message",
  "platform_requires_foreground = true",
  "cooldown_secs = 180             # Minimum spacing of cooldown foreground fetches",
  "",
  "[hooks]",
  "# Commands as argv arrays. Exit codes:",
  "#   register:      0 = registered, 2 = relay rejected the endpoint, else error",
  "#   enqueue_fetch: 0 = accepted, anything else = refused (legacy pull follows)",
  "# The endpoint is passed in $RELAYPUSH_ENDPOINT, the fetch strategy in",
  "# $RELAYPUSH_FETCH (foreground|background).",
  "register = []",
  "enqueue_fetch = []",
  "legacy_pull = []",
  "",
  "[store]",
  "path = \"state.json\"             # Relative to this directory"]

def templateText : String :=
  String.join (template.map (· ++ "\n"))

/-- The settings in a directory, with a reader of TOML. -/
def loadWith (parse : String → Option Toml.Members) (tree : Files.Tree) (dir : String) : Settings :=
  ((tree.readText (Files.join dir fileName)).toOption.bind (ofText? parse)).getD standard

def load (tree : Files.Tree) (dir : String) : Settings :=
  loadWith Toml.parse? tree dir

def prepare (tree : Files.Tree) (dir : String) : Except Failure Unit × Files.Tree :=
  if tree.has dir then (.ok (), tree)
  else
    match tree.layDirectories dir with
    | (.ok (), tree) => (.ok (), tree)
    | (.error cause, tree) => (.error (.config (.createDirectory dir cause)), tree)

def create (tree : Files.Tree) (dir : String) : Except Failure Bool × Files.Tree :=
  match prepare tree dir with
  | (.error e, tree) => (.error e, tree)
  | (.ok (), tree) =>
    let path := Files.join dir fileName
    if tree.has path then (.ok false, tree)
    else
      match tree.write path templateText.toUTF8 with
      | .ok tree => (.ok true, tree)
      | .error cause => (.error (.config (.writeFile cause)), tree)

end PushKeeper.Settings
