import PushKeeper.Shell.Glob
import PushKeeper.Shell.Tools.Basic

namespace PushKeeper.Shell.Tools

def changing (name : Bytes) (failing done : Bytes → Bytes) (files : List Bytes)
    (change : Files.Tree → String → Except Files.Fault Files.Tree) : Run Nat := do
  let good ← forAll files fun file => do
    let s ← get
    match change s.tree (textOf file) with
    | .ok tree =>
      set { s with tree }
      let text := done file
      unless text.isEmpty do giveLines [text]
      return true
    | .error fault =>
      reportFault name (failing file) fault
      return false
  return statusOf good

def about (verb : String) (file : Bytes) : Bytes := bytesOf verb ++ ' ' :: named file

def silent (_ : Bytes) : Bytes := []

def saying (wanted : Bool) (text : Bytes → Bytes) : Bytes → Bytes := if wanted then text else silent

def require (name what : Bytes) (words : List Bytes) : Run PUnit :=
  if words.isEmpty then refuse name 1 (bytesOf "missing " ++ what) else return

def touch : Tool := fun _ name arguments => do
  let (options, files) ← optionsIn name 1 true "acm" "drt"
    (short [("no-create", 'c'), ("date", 'd'), ("reference", 'r')] arguments)
  require name (bytesOf "file operand") files
  changing name (about "cannot touch") silent files fun tree path =>
    if tree.has path then .ok tree
    else if hasLetter options 'c' then .ok tree
    else tree.append path .empty

def makeDirectories : Tool := fun _ name arguments => do
  let names := [("parents", 'p'), ("verbose", 'v'), ("mode", 'm')]
  let (options, files) ← optionsIn name 1 true "pv" "m" (short names arguments)
  require name (bytesOf "operand") files
  let done (file : Bytes) : Bytes := name ++ bytesOf ": created directory " ++ named file
  let tree := (← get).tree
  -- The first part of a path that is there and is no directory is the one that is named.
  let inTheWay (file : Bytes) : Bytes :=
    let paths := (Files.lineage (textOf file)).map bytesOf
    let isOther (path : Bytes) : Bool := tree.has (textOf path) && !tree.isDirectory (textOf path)
    if hasLetter options 'p' then (paths.find? isOther).getD file else file
  changing name (about "cannot create directory" ∘ inTheWay) (saying (hasLetter options 'v') done)
    files fun tree path =>
      if hasLetter options 'p' then tree.makeDirectories path else tree.makeDirectory path

def removeEmpty (tree : Files.Tree) (path : String) : Except Files.Fault Files.Tree := do
  match ← tree.locate path with
  | .vacant .. => throw .noEntry
  | .found _ (.file ..) => throw .notDirectory
  | .found place .directory =>
    if (namesIn tree place).isEmpty then tree.removeEmpty path else throw .directoryNotEmpty

def removeDirectories : Tool := fun _ name arguments => do
  let (options, files) ← optionsIn name 1 true "pv" ""
    (short [("parents", 'p'), ("verbose", 'v')] arguments)
  require name (bytesOf "operand") files
  let done (file : Bytes) : Bytes := name ++ bytesOf ": removing directory, " ++ named file
  changing name (about "failed to remove") (saying (hasLetter options 'v') done) files
    fun tree path =>
      let above := if hasLetter options 'p' then (Files.lineage path).reverse else [path]
      above.foldlM removeEmpty tree

def remove : Tool := fun _ name arguments => do
  let names := [("recursive", 'r'), ("force", 'f'), ("verbose", 'v'), ("dir", 'd'), ("interactive", 'i')]
  let (options, files) ← optionsIn name 1 true "rRfvdiI" "" (short names arguments)
  let has (c : Char) : Bool := hasLetter options c
  unless has 'f' do require name (bytesOf "operand") files
  let tree := (← get).tree
  let done (file : Bytes) : Bytes :=
    about (if tree.isDirectory (textOf file) then "removed directory" else "removed") file
  changing name (about "cannot remove") (saying (has 'v') done) files fun tree path => do
    if tree.isDirectory path && (has 'r' || has 'R') then
      let (result, tree) := tree.removeDirectory path
      result
      return tree
    else if tree.isDirectory path && has 'd' then removeEmpty tree path
    else
      match tree.removeFile path with
      | .error fault => if has 'f' && Start.isMissing fault then .ok tree else .error fault
      | result => result

def markOf (tree : Files.Tree) (letters : Char → Bool) (path : Bytes) : Bytes :=
  match tree.locate (textOf path) with
  | .ok (.found _ .directory) => if letters 'F' || letters 'p' then ['/'] else []
  | .ok (.found _ (.file id _)) => if letters 'F' && tree.runnable.contains id then ['*'] else []
  | _ => []

def below (tree : Files.Tree) (names : Files.Place → List Bytes) : Nat → Bytes → List Bytes
  | 0, _ => []
  | fuel + 1, path =>
    match tree.locate (textOf path) with
    | .ok (.found place .directory) =>
      path :: (names place).flatMap fun n =>
        below tree names fuel (if path.getLast? = some '/' then path ++ n else path ++ '/' :: n)
    | _ => []

def list : Tool := fun _ name arguments => do
  let (options, words) ← optionsIn name 2 true "1aAdlrtRFpUC" ""
    (short [("all", 'a'), ("almost-all", 'A'), ("recursive", 'R'), ("reverse", 'r')] arguments)
  let has (c : Char) : Bool := hasLetter options c
  let tree := (← get).tree
  if words.isEmpty && (tree.node? tree.here).isNone then return 0
  let words := if words.isEmpty then [['.']] else words
  let isPlain (word : Bytes) : Bool := has 'd' || !tree.isDirectory (textOf word)
  let there (word : Bytes) : Bool := tree.has (textOf word)
  let mut status := 0
  for word in words.filter (!there ·) do
    let fault := match tree.locate (textOf word) with
      | .error fault => fault
      | .ok _ => .noEntry
    reportFault name (about "cannot access" word) fault
    status := 2
  let turned (names : List Bytes) : List Bytes := if has 'r' then names.reverse else names
  let ordered := turned ((words.filter there).mergeSort inOrder)
  giveLines ((ordered.filter isPlain).map fun word => word ++ markOf tree has word)
  let mut first := (ordered.filter isPlain).isEmpty
  let shown (place : Files.Place) : List Bytes :=
    let names := namesIn tree place
    turned (if has 'a' || has 'A' then names else names.filter (·.head? ≠ some '.'))
  let directories := ordered.filter (!isPlain ·)
  let all := if has 'R' then directories.flatMap (below tree shown (tree.nodes.length + 1))
    else directories
  for word in all do
    if let .ok (.found place .directory) := tree.locate (textOf word) then
      unless first do give ['\n']
      if 1 < words.length || has 'R' then give (word ++ [':', '\n'])
      first := false
      let dots : List Bytes := if has 'a' then [['.'], ['.', '.']] else []
      let names := if has 'r' then shown place ++ dots.reverse else dots ++ shown place
      giveLines (names.map fun n => n ++ markOf tree has (word ++ '/' :: n))
  return status

def lastName (path : Bytes) : Bytes :=
  let names := (path.splitOn '/').filter (!·.isEmpty)
  names.getLastD (if path.isEmpty then [] else ['/'])

def aboveName (path : Bytes) : Bytes :=
  let trimmed := (path.reverse.dropWhile (· = '/')).reverse
  let above := trimmed.reverse.dropWhile (· ≠ '/')
  let above := (above.dropWhile (· = '/')).reverse
  if !trimmed.contains '/' then (if path.head? = some '/' then ['/'] else ['.'])
  else if above.isEmpty then ['/'] else above

def targetOf (tree : Files.Tree) (source target : Bytes) : Bytes :=
  if tree.isDirectory (textOf target) then target ++ '/' :: lastName source else target

def moved (source target : Files.Place) (nodes : List (Files.Place × Files.Node)) :
    List (Files.Place × Files.Node) :=
  nodes.filterMap fun (p, n) =>
    if source.isPrefixOf p then some (target ++ p.drop source.length, n) else none

def renewed : Files.Tree → List (Files.Place × Files.Node) → Files.Tree
  | tree, [] => tree
  | tree, (p, .directory) :: rest => renewed (tree.set p .directory) rest
  | tree, (p, .file id bytes) :: rest =>
    let new := tree.fresh
    let copied := { tree.set p (.file new bytes) with fresh := new + 1 }
    renewed (copied.setRunnable new (tree.runnable.contains id)) rest

def copied (deep : Bool) (tree : Files.Tree) (source target : Bytes) :
    Except Files.Fault Files.Tree := do
  match ← tree.locate (textOf source) with
  | .vacant .. => throw .noEntry
  | .found place (.file id bytes) =>
    let isNew := !tree.has (textOf target)
    let bytes := if (Session.devices.lookup place).isSome then .empty else bytes
    let (p, new, _, tree) ← tree.openFile (textOf target)
    let tree := tree.set p (.file new bytes)
    return if isNew then tree.setRunnable new (tree.runnable.contains id) else tree
  | .found place .directory =>
    if !deep then throw .isDirectory
    match ← tree.locate (textOf target) with
    | .found .. => throw .alreadyExists
    | .vacant goal _ =>
      return renewed tree (moved place goal ((place, .directory) :: tree.nodes))

def sourcesAndTarget (name : Bytes) (words : List Bytes) : Run (List Bytes × Bytes) := do
  match words with
  | [] => refuse name 1 (bytesOf "missing file operand")
  | [only] => refuse name 1 (bytesOf "missing destination file operand after " ++ named only)
  | _ =>
    let target := words.getLastD []
    let tree := (← get).tree
    if 2 < words.length && !tree.isDirectory (textOf target) then
      let why := if tree.has (textOf target) then ": Not a directory" else ": No such file or directory"
      report name (about "target" target ++ bytesOf why)
      setStatus 1
      throw .exited
    return (words.dropLast, target)

def sameFile (a b : Bytes) : Bytes := named a ++ bytesOf " and " ++ named b ++ bytesOf " are the same file"

def placeOf? (tree : Files.Tree) (path : Bytes) : Option Files.Place :=
  match tree.locate (textOf path) with
  | .ok (.found place _) => some place
  | .ok (.vacant place _) => some place
  | .error _ => none

def holds (tree : Files.Tree) (outer inner : Bytes) : Bool :=
  match placeOf? tree outer, placeOf? tree inner with
  | some p, some q => tree.isDirectory (textOf outer) && p.isPrefixOf q
  | _, _ => false

def arrow (source goal : Bytes) : Bytes := named source ++ bytesOf " -> " ++ named goal

def copy : Tool := fun _ name arguments => do
  let names := [("recursive", 'r'), ("archive", 'a'), ("force", 'f'), ("verbose", 'v'),
    ("no-clobber", 'n')]
  let (options, words) ← optionsIn name 1 true "rRafpvnuidTL" "" (short names arguments)
  let has (c : Char) : Bool := hasLetter options c
  let deep := has 'r' || has 'R' || has 'a'
  let (sources, target) ← sourcesAndTarget name words
  let good ← forAll sources fun source => do
    let s ← get
    let goal := targetOf s.tree source target
    let refused (text : Bytes) : Run Bool := do
      report name text
      return false
    if !s.tree.has (textOf source) then
      reportFault name (about "cannot stat" source) .noEntry
      return false
    else if s.tree.isDirectory (textOf source) && !deep then
      refused (about "-r not specified; omitting directory" source)
    else if has 'n' && s.tree.has (textOf goal) then return true
    else if holds s.tree source goal then
      refused (bytesOf "cannot copy a directory, " ++ named source ++ bytesOf ", into itself, "
        ++ named goal)
    else if s.tree.has (textOf goal) && placeOf? s.tree source = placeOf? s.tree goal then
      refused (sameFile source goal)
    else
      match copied deep s.tree source goal with
      | .ok tree =>
        set { s with tree }
        if has 'v' then giveLines [arrow source goal]
        return true
      | .error fault =>
        let what := if s.tree.isDirectory (textOf source) then "cannot create directory"
          else "cannot create regular file"
        reportFault name (about what goal) fault
        return false
  return statusOf good

def movedTo (tree : Files.Tree) (source goal : Bytes) : Except Files.Fault Files.Tree := do
  match ← tree.locate (textOf source), ← tree.locate (textOf goal) with
  | .found place .directory, .found q .directory =>
    unless (namesIn tree q).isEmpty do throw .directoryNotEmpty
    let others := tree.nodes.filter fun (p, _) => !place.isPrefixOf p && p ≠ q
    return { tree with nodes := moved place q tree.nodes ++ others }
  | .found _ .directory, .found _ (.file ..) => throw .notDirectory
  | .found place .directory, .vacant q _ =>
    let others := tree.nodes.filter fun (p, _) => !place.isPrefixOf p
    return { tree with nodes := moved place q tree.nodes ++ others }
  | .found .., _ => tree.rename (textOf source) (textOf goal)
  | .vacant .., _ => throw .noEntry

def move : Tool := fun _ name arguments => do
  let names := [("force", 'f'), ("verbose", 'v'), ("no-clobber", 'n')]
  let (options, words) ← optionsIn name 1 true "fnvuiT" "" (short names arguments)
  let has (c : Char) : Bool := hasLetter options c
  let (sources, target) ← sourcesAndTarget name words
  let good ← forAll sources fun source => do
    let s ← get
    let goal := targetOf s.tree source target
    let refused (text : Bytes) : Run Bool := do
      report name text
      return false
    if !s.tree.has (textOf source) then
      reportFault name (about "cannot stat" source) .noEntry
      return false
    else if has 'n' && s.tree.has (textOf goal) then return true
    else if s.tree.has (textOf goal) && placeOf? s.tree source = placeOf? s.tree goal then
      refused (sameFile source goal)
    else if holds s.tree source goal then
      refused (about "cannot move" source ++ bytesOf " to a subdirectory of itself, " ++ named goal)
    else
      match movedTo s.tree source goal with
      | .ok tree =>
        set { s with tree }
        if has 'v' then giveLines [bytesOf "renamed " ++ arrow source goal]
        return true
      | .error fault =>
        let isOver := fault == .directoryNotEmpty
        let isOther := fault == .notDirectory && s.tree.isDirectory (textOf source)
          && s.tree.has (textOf goal)
        if isOther then
          refused (bytesOf "cannot overwrite non-directory " ++ named goal ++ bytesOf " with directory "
            ++ named source)
        else if isOver then
          reportFault name (about "cannot overwrite" goal) fault
          return false
        else
          reportFault name (about "cannot move" source ++ bytesOf " to " ++ named goal) fault
          return false
  return statusOf good

def runnableAfter? (mode : Bytes) (before : Bool) : Option Bool :=
  if !mode.isEmpty && mode.all Char.isDigit then
    if mode.all (· < '8') then some (mode.any fun c => (c.toNat - 48) % 2 = 1) else none
  else
    (mode.splitOn ',').foldlM (fun can part =>
      let who := part.takeWhile ['u', 'g', 'o', 'a'].contains
      match part.drop who.length with
      | sign :: what =>
        if !(['+', '-', '='].contains sign) || !what.all ['r', 'w', 'x', 'X', 's', 't'].contains then none
        else
          let named := what.contains 'x'
          some <| if sign = '+' then can || named else if sign = '-' then can && !named else named
      | [] => none) before

def changeRights : Tool := fun _ name arguments => do
  let isMode (word : Bytes) : Bool := (runnableAfter? word false).isSome
  let words := arguments.filter fun word => isMode word || word.head? ≠ some '-'
  match words with
  | [] => refuse name 1 (bytesOf "missing operand")
  | [mode] => refuse name 1 (bytesOf "missing operand after " ++ cited mode)
  | mode :: files =>
    unless isMode mode do refuse name 1 (bytesOf "invalid mode: " ++ cited mode)
    changing name (about "cannot access") silent files fun tree path => do
      match ← tree.locate path with
      | .vacant .. => throw .noEntry
      | .found _ .directory => return tree
      | .found _ (.file id _) =>
        let before := tree.runnable.contains id
        return tree.setRunnable id ((runnableAfter? mode before).getD before)

def lastNameWithout (ending path : Bytes) : Bytes :=
  let last := lastName path
  let cuts := ending.isSuffixOf last && ending ≠ last
  if cuts then last.take (last.length - ending.length) else last

def lastNameOf : Tool := fun _ name arguments => do
  let (options, words) ← optionsIn name 1 false "az" "s"
    (short [("multiple", 'a'), ("suffix", 's')] arguments)
  let ending := wordWith? options 's'
  match words with
  | [] => refuse name 1 (bytesOf "missing operand")
  | path :: rest =>
    if hasLetter options 'a' || ending.isSome then
      giveLines (words.map (lastNameWithout (ending.getD [])))
    else
      if let some extra := rest[1]? then refuse name 1 (bytesOf "extra operand " ++ cited extra)
      giveLines [lastNameWithout (rest.headD []) path]
    return 0

def aboveNameOf : Tool := fun _ name arguments => do
  require name (bytesOf "operand") arguments
  giveLines (arguments.map aboveName)
  return 0

end PushKeeper.Shell.Tools
