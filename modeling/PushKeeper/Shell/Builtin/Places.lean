import PushKeeper.Shell.Builtin.Basic

namespace PushKeeper.Shell.Builtin

def splitPath (path : Bytes) : Bytes × List Bytes :=
  let root : Bytes := match path with
    | '/' :: '/' :: '/' :: _ => ['/']
    | '/' :: '/' :: _ => ['/', '/']
    | _ => ['/']
  (root, (path.splitOn '/').filter (!·.isEmpty))

def stepBack (names : List Bytes) (name : Bytes) : List Bytes :=
  if name = ['.'] then names
  else if name = ['.', '.'] then names.tail
  else name :: names

def pathFrom (directory path : Bytes) : Bytes :=
  let (root, names) := splitPath path
  let (root, start) := if path.head? = some '/' then (root, []) else splitPath directory
  root ++ ['/'].intercalate (names.foldl stepBack start.reverse).reverse

def pathOf (place : Files.Place) : Bytes :=
  '/' :: bytesOf ("/".intercalate place)

def setHandedOn (name : String) (value : Bytes) : Run Unit := do
  setVariable name.toList value
  modify fun s => s.putVariable { s.variableOr name.toList with exported := true }

def goTo (physical : Bool) (path : Bytes) : Run Bool := do
  let s ← get
  let target := if physical then path else pathFrom s.directory path
  match s.tree.locate (textOf target) with
  | .ok (.found place .directory) =>
    let directory := if physical then pathOf place else target
    set { s with tree := { s.tree with here := place }, directory }
    setHandedOn "OLDPWD" s.directory
    setHandedOn "PWD" directory
    return true
  | _ => return false

def isPlaced (path : Bytes) : Bool :=
  match (path.splitOn '/').head? with
  | some [] => !path.isEmpty
  | some name => name == ['.'] || name == ['.', '.']
  | none => false

def goToFirst (physical : Bool) (path : Bytes) : List Bytes → Run (Option Bool)
  | [] => return none
  | place :: places => do
    let candidate := if place.isEmpty then path else place ++ '/' :: path
    if (← get).tree.isDirectory (textOf candidate) then
      return if ← goTo physical candidate then some !place.isEmpty else none
    else goToFirst physical path places

def changeDirectory (arguments : List Bytes) : Run Nat := do
  let (letters, words) ← afterOptions "LP" arguments
  let physical := letters.getLast? = some 'P'
  let s ← get
  let (path, shows) : Bytes × Bool := match words.head? with
    | none => ((s.lookUp? "HOME".toList).getD [], false)
    | some ['-'] => ((s.lookUp? "OLDPWD".toList).getD [], true)
    | some path => (path, false)
  let refuse : Run Nat := fail (bytesOf "can't cd to " ++ path)
  let found ←
    if isPlaced path then do
      pure (if ← goTo physical path then some shows else none)
    else do
      let path := if path.isEmpty then ['.'] else path
      let places := ((s.lookUp? "CDPATH".toList).map (·.splitOn ':')).getD []
      match ← goToFirst physical path places with
      | some looked => pure (some (shows || looked))
      | none => pure (if ← goTo physical path then some shows else none)
  match found with
  | none => refuse
  | some shows => if shows then sayLines [(← get).directory] else return 0

def showDirectory (arguments : List Bytes) : Run Nat := do
  let (letters, _) ← afterOptions "LP" arguments
  let s ← get
  sayLines [if letters.getLast? = some 'P' then pathOf s.tree.here else s.directory]

end PushKeeper.Shell.Builtin
