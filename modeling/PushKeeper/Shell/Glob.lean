import PushKeeper.Files.Tree
import PushKeeper.Shell.Pattern

namespace PushKeeper.Shell

def namesIn (tree : Files.Tree) (place : Files.Place) : List Bytes :=
  let here := tree.nodes.filterMap fun (p, _) =>
    if p.isEmpty then none else if p.dropLast = place then p.getLast?.map bytesOf else none
  here.mergeSort inOrder

def closesSet (marks : List Mark) : Bool :=
  let inner := match marks with
    | m :: rest => if m.char = '!' then rest else m :: rest
    | [] => []
  (inner.drop 1).any (·.char = ']')

def isWild : List Mark → Bool
  | [] => false
  | m :: rest => m.is '*' || m.is '?' || (m.is '[' && closesSet rest) || isWild rest

def cutPattern : List Mark → List (List Mark)
  | [] => [[]]
  | m :: rest =>
    if m.char = '/' then [] :: cutPattern rest
    else
      match cutPattern rest with
      | part :: parts => (m :: part) :: parts
      | [] => [[m]]

def matching (tree : Files.Tree) (directory : Bytes) (part : List Mark) : List Bytes :=
  match tree.locate (if directory.isEmpty then "." else textOf directory) with
  | .ok (.found place .directory) =>
    let names := ['.'] :: ['.', '.'] :: namesIn tree place
    let isHidden (name : Bytes) : Bool := name.head? = some '.' && part.head?.map (·.char) ≠ some '.'
    names.filter fun name => !isHidden name && fits part name
  | _ => []

def pathsFrom (tree : Files.Tree) (directory : Bytes) : List (List Mark) → List Bytes
  | [] => []
  | [part] =>
    if isWild part then (matching tree directory part).map (directory ++ ·)
    else
      let path := directory ++ part.map (·.char)
      if tree.has (textOf path) then [path] else []
  | part :: parts =>
    if isWild part then
      (matching tree directory part).flatMap fun name =>
        pathsFrom tree (directory ++ name ++ ['/']) parts
    else pathsFrom tree (directory ++ part.map (·.char) ++ ['/']) parts

def globbed (tree : Files.Tree) (pattern : List Mark) : List Bytes :=
  let parts := cutPattern (settled pattern)
  if parts.any isWild then (pathsFrom tree [] parts).mergeSort inOrder else []

end PushKeeper.Shell
