import PushKeeper.Shell.Output
import PushKeeper.Shell.Tools.Basic

namespace PushKeeper.Shell.Tools

def given (s : Session) : List (Bytes × Bytes) :=
  s.vars.filterMap fun v => v.value.map (v.name, ·)

def usualDirectories : Bytes := "/bin:/usr/bin".toList

def startComplaint (name : Bytes) (called : Bytes → Bytes) (words : List Bytes)
    (fault : Files.Fault) : Run Nat := do
  reportFault name (called (words.headD [])) fault
  return if fault = .noEntry then 127 else 126

def goOnAs (run : Runner) (name : Bytes) (called : Bytes → Bytes) (words : List Bytes) : Run Nat := do
  let s ← get
  let directories := (s.lookUp? Session.pathName).getD usualDirectories
  match Start.ofName s.tree directories words with
  | .ok start =>
    become run (given s) start
    return 0
  | .error fault => startComplaint name called words fault

def grown (c : Char) (word : Option Bytes) : Option Bytes := some (c :: word.getD [])

def wordsFrom (quote : Option Char) (word : Option Bytes) : List Char → List Bytes × Option Char
  | [] => ((word.map List.reverse).toList, quote)
  | '\\' :: c :: rest =>
    if quote.isNone then wordsFrom quote (grown c word) rest
    else wordsFrom quote (grown c (grown '\\' word)) rest
  | c :: rest =>
    if quote = some c then wordsFrom none word rest
    else if quote.isSome then
      if c = '\n' then ([], quote) else wordsFrom quote (grown c word) rest
    else if c = '\'' || c = '"' then wordsFrom (some c) (some (word.getD [])) rest
    else if c.isWhitespace then
      let (words, left) := wordsFrom none none rest
      ((word.map List.reverse).toList ++ words, left)
    else wordsFrom none (grown c word) rest

def wordsOf (cs : Bytes) : List Bytes := (wordsFrom none none cs).1

def splitSettings (words : List Bytes) : List (Bytes × Bytes) × List Bytes :=
  let settings := words.takeWhile (·.contains '=')
  (settings.filterMap splitEquals?, words.drop settings.length)

def withVariables : Tool := fun run name arguments => do
  let names := [("ignore-environment", 'i'), ("unset", 'u'), ("chdir", 'C'), ("split-string", 'S'),
    ("null", '0')]
  let (options, words) ← optionsIn name 125 false "i0v" "uCS" (short names arguments)
  let words := options.flatMap (fun (c, text) => if c = 'S' then wordsOf text else []) ++ words
  let (isEmpty, words) := if words.head? = some ['-'] then (true, words.tail) else (false, words)
  if isEmpty || hasLetter options 'i' then modify fun s => { s with vars := [] }
  for (c, value) in options do
    if c = 'u' then modify (Session.dropVariable value)
  let (settings, words) := splitSettings words
  for (key, value) in settings do
    modify fun s => s.putVariable ⟨key, some value, true, false⟩
  if let some path := wordWith? options 'C' then
    match (← get).tree.locate (textOf path) with
    | .ok (.found place .directory) =>
      modify fun s => { s with
        directory := bytesOf ("/" ++ "/".intercalate place)
        tree := { s.tree with here := place } }
    | result =>
      let fault := match result with
        | .error fault => fault
        | .ok (.vacant ..) => .noEntry
        | .ok (.found ..) => .notDirectory
      reportFault name (bytesOf "cannot change directory to " ++ named path) fault
      return 125
  if words.isEmpty then
    let ending := if hasLetter options '0' then '\x00' else '\n'
    give ((given (← get)).flatMap fun (n, value) => n ++ '=' :: value ++ [ending])
    return 0
  else do
    let status ← goOnAs run name cited words
    if status = 127 && (words.headD []).contains ' ' then
      report name (bytesOf "use -[v]S to pass options in shebang lines")
    return status

def politely : Tool := fun run name arguments => do
  let arguments := match arguments with
    | ('-' :: c :: cs) :: rest => if c.isDigit then ['-', 'n'] :: (c :: cs) :: rest else arguments
    | _ => arguments
  let (_, words) ← optionsIn name 125 false "" "n" arguments
  if words.isEmpty then
    give ['0', '\n']
    return 0
  else goOnAs run name cited words

def lasting : Tool := fun run name arguments => do
  let (_, words) ← optionsIn name 125 false "" "" arguments
  if words.isEmpty then refuse name 125 (bytesOf "missing operand")
  modify fun s => { s with ignored := 1 :: s.ignored }
  goOnAs run name (bytesOf "failed to run command " ++ cited ·) words

def apart : Tool := fun run name arguments => do
  let (_, words) ← optionsIn name 1 false "cfw" "" arguments
  goOnAs run name (bytesOf "failed to execute " ++ ·) words

def runBesides (run : Runner) (name : Bytes) (called : Bytes → Bytes) (words : List Bytes) :
    Run Ended :=
  inProcess do setStatus (← goOnAs run name called words)

def timeOf? (word : Bytes) : Option (Option Nat) :=
  let unit := word.getLast?.bind fun c =>
    [('s', 1), ('m', 60), ('h', 3600), ('d', 86400)].lookup c
  let digits := if unit.isSome then word.dropLast else word
  if digits.isEmpty then none
  else
    match realOf digits with
    | (.finite false num den, none) => some (some (num * 1000000 * unit.getD 1 / den))
    | (.infinite false, none) => some none
    | _ => none

def pass (amount : Option Nat) : Run Unit := do
  let s ← get
  let after := amount.map (s.clock + ·)
  match s.limit with
  | none => if let some clock := after then set { s with clock } else throw .hung
  | some limit =>
    if after.any (· < limit) then set { s with clock := after.getD limit }
    else
      set { s with clock := limit }
      throw .hung

def within {α : Type} (amount : Nat) (body : Run α) : Run (Option α) := fun s =>
  let limit := s.clock + amount
  let isFirst : Bool := s.limit.all (limit < ·)
  match body { s with limit := if isFirst then some limit else s.limit } with
  | (.ok a, after) => (.ok (some a), { after with limit := s.limit })
  | (.error .hung, after) =>
    if isFirst then (.ok none, { after with limit := s.limit, clock := limit })
    else (.error .hung, after)
  | (.error e, after) => (.error e, { after with limit := s.limit })

def inTime : Tool := fun run name arguments => do
  let names := [("signal", 's'), ("kill-after", 'k'), ("foreground", 'f'), ("preserve-status", 'p')]
  let (options, words) ← optionsIn name 125 false "fpv" "ks" (short names arguments)
  match words with
  | time :: program :: rest => do
    let some amount := timeOf? time
      | refuse name 125 (bytesOf "invalid time interval " ++ cited time)
    let body := runBesides run name (bytesOf "failed to run command " ++ cited ·) (program :: rest)
    let ended ← match amount.filter (· ≠ 0) with
      | none => some <$> body
      | some amount => within amount body
    let signal := ((wordWith? options 's').bind signal?).getD 15
    match ended with
    | some (.exited n) => return n
    | some (.killed n) => throw (.killed n)
    | none =>
      if signal = 9 then throw (.killed 9)
      return if hasLetter options 'p' then 128 + signal else 124
  | _ => do
    let _ ← write 2 (bytesOf "Try '" ++ name ++ bytesOf " --help' for more information.\n")
    return 125

def inGroups {α : Type} (size : Nat) : Nat → List α → List (List α)
  | 0, _ => []
  | count + 1, items =>
    if items.isEmpty then [] else items.take size :: inGroups size count (items.drop size)

def replacing (mark text : Bytes) : Nat → Bytes → Bytes
  | 0, cs => cs
  | _, [] => []
  | fuel + 1, c :: cs =>
    if mark.isPrefixOf (c :: cs) then text ++ replacing mark text fuel ((c :: cs).drop mark.length)
    else c :: replacing mark text fuel cs

def runEach (run : Runner) (name : Bytes) (status : Nat) : List (List Bytes) → Run Nat
  | [] => return status
  | words :: rest => do
    let about (text : String) : Run Unit := report name (words.headD [] ++ bytesOf (": " ++ text))
    match ← runBesides run name id words with
    | .killed n =>
      about ("terminated by signal " ++ Text.Numeral.render n)
      return 125
    | .exited n =>
      if n = 126 || n = 127 then return n
      else if n = 255 then
        about "exited with status 255; aborting"
        return 124
      else runEach run name (if n = 0 then status else 123) rest

def withWords : Tool := fun run name arguments => do
  let names := [("null", '0'), ("no-run-if-empty", 'r'), ("max-args", 'n'), ("delimiter", 'd'),
    ("max-lines", 'L')]
  let (options, words) ← optionsIn name 1 false "r0tx" "nILsPd" (short names arguments)
  let text := (← readAll 0).toOption.getD []
  let command := if words.isEmpty then ["echo".toList] else words
  let has (c : Char) : Bool := hasLetter options c
  let byLines := has 'I' || has 'L'
  let plain := !has '0' && !has 'd'
  let (items, left) : List Bytes × Option Char :=
    if has '0' then ((text.splitOn '\x00').filter (!·.isEmpty), none)
    else if byLines then ((plainLines text).filter (!·.isEmpty), none)
    else
      match wordWith? options 'd' with
      | some (mark :: _) => ((withoutEnd text).splitOn mark, none)
      | _ => wordsFrom none none text
  let size := (((wordWith? options 'n').or (wordWith? options 'L')).bind wholeNumber?).getD items.length
  let runs : List (List Bytes) :=
    match wordWith? options 'I' with
    | some mark => items.map fun item => command.map fun w => replacing mark item (w.length + 1) w
    | none =>
      if items.isEmpty then if has 'r' || left.isSome then [] else [command]
      else (inGroups (max size 1) items.length items).map fun group =>
        command ++ if has 'L' && plain then group.flatMap wordsOf else group
  match left with
  | none => runEach run name 0 runs
  | some quote =>
    -- The words before the quote that is not closed still make whole groups.
    let _ ← runEach run name 0 (runs.filter fun words => words.length = command.length + size
      && (wordWith? options 'n').isSome)
    let kind := if quote = '"' then "double" else "single"
    report name (bytesOf ("unmatched " ++ kind
      ++ " quote; by default quotes are special to xargs unless you use the -0 option"))
    return 1

def tellVariables : Tool := fun _ name arguments => do
  let (_, names) ← optionsIn name 2 true "0" "" arguments
  let vars := given (← get)
  if names.isEmpty then
    giveLines (vars.map fun (n, value) => n ++ '=' :: value)
    return 0
  let good ← forAll names fun n => do
    match vars.lookup n with
    | some value =>
      giveLines [value]
      return true
    | none => return false
  return statusOf good

def tellPaths : Tool := fun _ name arguments => do
  let (options, names) ← optionsIn name 2 true "as" "" arguments
  let s ← get
  let directories := (s.lookUp? Session.pathName).getD usualDirectories
  let good ← forAll names fun n => do
    let paths := (Start.candidates directories n).filter fun path => (Program.at? s.tree path).isOk
    giveLines (if hasLetter options 'a' then paths else paths.take 1)
    return !paths.isEmpty
  return statusOf (good && !names.isEmpty)

def sleep : Tool := fun _ name arguments => do
  let (_, words) ← optionsIn name 1 true "" "" arguments
  if words.isEmpty then refuse name 1 (bytesOf "missing operand")
  let times := words.map timeOf?
  if let some (word, _) := (words.zip times).find? fun (_, time) => time.isNone then
    refuse name 1 (bytesOf "invalid time interval " ++ cited word)
  modify fun s => { s with slept := true }
  let amounts : Option (List Nat) := (times.filterMap id).mapM id
  pass (amounts.map fun times => times.foldl (· + ·) 0)
  return 0

def writeWords : Tool := fun _ _ arguments => do
  let isOption (word : Bytes) : Bool :=
    word.head? = some '-' && 1 < word.length && (word.drop 1).all ['n', 'e', 'E'].contains
  let letters := (arguments.takeWhile isOption).flatMap (·.drop 1)
  let text := joinWords (arguments.dropWhile isOption)
  let reads := (letters.reverse.find? (· ≠ 'n')) = some 'e'
  let (text, isCut) := if reads then unescape (text.length + 1) text else (text, false)
  return statusOf (← write 1 (if isCut || letters.contains 'n' then text else text ++ ['\n']))

end PushKeeper.Shell.Tools
