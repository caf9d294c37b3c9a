import PushKeeper.Settings.File

namespace PushKeeper.Daemon

structure Arguments where
  configDir : String
  state : Option String
  init : Bool
  deriving DecidableEq

inductive Request
  | start (arguments : Arguments)
  | help
  | refused
  deriving DecidableEq

inductive ValueOption
  | configDir
  | state
  deriving DecidableEq

def ValueOption.label : ValueOption → String
  | .configDir => "--config-dir"
  | .state => "--state"

structure Given where
  configDir : Option String
  state : Option String
  init : Bool
  deriving DecidableEq

namespace Given

def nothing : Given := ⟨none, none, false⟩

def add? (g : Given) (o : ValueOption) (value : String) : Option Given :=
  if value.isEmpty then none
  else
    match o with
    | .configDir => if g.configDir.isSome then none else some { g with configDir := some value }
    | .state => if g.state.isSome then none else some { g with state := some value }

def arguments (g : Given) : Arguments :=
  ⟨g.configDir.getD Settings.defaultDirectory, g.state, g.init⟩

end Given

def looksLikeOption (word : String) : Bool :=
  word.startsWith "-" && word != "-"

def inline? (word : String) : Option (ValueOption × String) :=
  [ValueOption.configDir, .state].findSome? fun o =>
    let mark := o.label ++ "="
    if word.startsWith mark then some (o, String.ofList (word.toList.drop mark.length)) else none

def plain? (word : String) : Option ValueOption :=
  [ValueOption.configDir, .state].find? (·.label = word)

def usage : String :=
  String.join <| [
    "Usage: relaypushd [OPTIONS]",
    "",
    "Options:",
    "      --config-dir <DIR>  Directory holding config.toml [default: .relaypush]",
    "      --state <FILE>      State file, overriding the settings (\":memory:\" keeps state in memory)",
    "      --init              Write a default config.toml into the config dir and exit",
    "  -h, --help              Print help"].map (· ++ "\n")

def Request.ofWordsAfter (g : Given) : List String → Request
  | [] => .start g.arguments
  | ["--"] => .start g.arguments
  | word :: rest =>
    if word = "--help" || word.startsWith "-h" then .help
    else if word = "--init" then
      if g.init then .refused else ofWordsAfter { g with init := true } rest
    else
      match plain? word, inline? word with
      | some o, _ =>
        match rest with
        | [] => .refused
        | value :: rest =>
          if looksLikeOption value then .refused
          else
            match g.add? o value with
            | some g => ofWordsAfter g rest
            | none => .refused
      | none, some (o, value) =>
        match g.add? o value with
        | some g => ofWordsAfter g rest
        | none => .refused
      | none, none => .refused

def Request.ofWords (words : List String) : Request :=
  ofWordsAfter .nothing words

end PushKeeper.Daemon
