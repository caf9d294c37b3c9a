import PushKeeper.Shell.Run

namespace PushKeeper.Shell

def firstVariables : List (String × Bytes) :=
  [("OPTIND", ['1']), ("PS4", "+ ".toList), ("PS2", "> ".toList), ("PS1", "# ".toList),
    ("PATH", Builtin.usualDirectories), ("IFS", usualSeparators)]

def Session.parent (s : Session) : Nat := s.above.headD (s.process - 1)

def Session.startDirectory (s : Session) : Bytes :=
  let given := (s.lookUp? "PWD".toList).getD []
  let leadsHere := match s.tree.locate (textOf given) with
    | .ok (.found place .directory) => place == s.tree.here
    | _ => false
  if given.head? = some '/' && leadsHere then given
  else if (s.tree.node? s.tree.here).isSome then Builtin.pathOf s.tree.here
  else []

/-- The session of a shell that has been given variables. Those whose names are none are not taken, and
neither are the values of some. -/
def Session.begun (title : Bytes) (s : Session) : Session :=
  let own : List Variable := firstVariables.map fun (name, value) =>
    ⟨name.toList, some value, false, false⟩
  let given := s.vars.filter fun v => isName v.name
  let taken := given.foldl (fun (s : Session) v => s.putVariable v) { s with vars := own }
  let directory := s.startDirectory
  let kept := taken.assign "IFS".toList usualSeparators
    |>.assign Session.placeName ['1']
    |>.assign "PPID".toList (Text.Numeral.digits s.parent)
  { kept.putVariable ⟨"PWD".toList, some directory, true, false⟩ with
    title
    directory
    root := s.process
    status := 0 }

inductive Source
  | words (text : Bytes)
  | file (path : Bytes)
  | input

def sourceOf (asked : Builtin.Asked) : Run (List Source × List Bytes) := do
  let readsInput := (← get).options.contains 's'
  let input : List Source := if readsInput then [.input] else []
  match asked.hasScript, asked.words with
  | true, [] => fail (bytesOf "-c requires an argument")
  | true, text :: rest => return (.words text :: input, rest)
  | false, [] => do
    Builtin.switch true 's'
    return ([.input], [])
  | false, path :: rest => return if readsInput then (input, path :: rest) else ([.file path], path :: rest)

def setArguments (isNamed : Bool) (words : List Bytes) : Run Unit :=
  modify fun s =>
    match isNamed, words with
    | true, title :: rest => { s with title, arguments := rest }
    | _, rest => { s with arguments := rest }

def runSource (run : Runner) : Source → Run Unit
  | .words text => run (.text text .plain)
  | .input => do
    let text := (← readAll 0).toOption.getD []
    run (.file text)
  | .file path => do
    match (← get).openPath (textOf path) .read with
    | .error fault => fail (openComplaint .read path fault)
    | .ok (.directory, _) => return
    | .ok _ =>
      let text := ((← get).fileText (textOf path)).toOption.getD []
      modify fun s => { s with title := path }
      run (.file text)

def runShell (run : Runner) (words : List Bytes) : Run Unit := do
  modify (Session.begun (words.headD []))
  if (← get).directory.isEmpty then
    complain (bytesOf "getcwd() failed: No such file or directory")
  toItsEnd run do
    let asked ← Builtin.switched true words.tail
    let (sources, rest) ← sourceOf asked
    let isNamed := match sources with
      | .input :: _ => false
      | _ => true
    if let .file path :: _ := sources then
      if let .error fault := (← get).openPath (textOf path) .read then
        fail (openComplaint .read path fault)
    setArguments isNamed rest
    sources.forM (runSource run)

def step (run : Runner) : Task → Run Unit
  | .commands cs how => runAll run how cs
  | .command c how => runCommand run how c
  | .text cs how => runText run how false cs
  | .file cs => runText run .plain true cs
  | .program name words =>
    if Program.shells.contains name then runShell run words
    else
      match Tools.all.lookup name with
      | some tool => do setStatus (← tool run (words.headD []) words.tail)
      | none => setStatus 127

def perform : Nat → Runner
  | 0 => fun _ => throw .hung
  | depth + 1 => step (perform depth)

def deepest : Nat := 100000

end PushKeeper.Shell
