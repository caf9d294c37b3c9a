
namespace PushKeeper.Files

def cutSlashes : List Char → List (List Char)
  | [] => [[]]
  | c :: cs =>
    if c = '/' then [] :: cutSlashes cs
    else
      match cutSlashes cs with
      | part :: parts => (c :: part) :: parts
      | [] => [[c]]

def segments (path : String) : List String :=
  (cutSlashes path.toList).map String.ofList

def isAbsolute (path : String) : Bool :=
  path.toList.head? == some '/'

def join (dir path : String) : String :=
  if isAbsolute path then path
  else if dir.isEmpty || dir.toList.getLast? == some '/' then dir ++ path
  else dir ++ "/" ++ path

def isVoid (segment : String) : Bool :=
  segment == "" || segment == "."

def dropVoid : List String → List String
  | [] => []
  | first :: rest => first :: (rest.reverse.dropWhile isVoid).reverse

/-- The path without its last name; nothing for the root and for the empty path. -/
def parent? (path : String) : Option String :=
  match (dropVoid (segments path)).reverse with
  | [] => none
  | [""] => none
  | _ :: before =>
    match dropVoid before.reverse with
    | [""] => some "/"
    | kept => some ("/".intercalate kept)

def lineageWith (path : String) : Nat → List String
  | 0 => [path]
  | fuel + 1 =>
    match (parent? path).filter (· ≠ "") with
    | none => [path]
    | some above => lineageWith above fuel ++ [path]

def lineage (path : String) : List String :=
  lineageWith path path.length

def sidecar (path suffix : String) : String :=
  path ++ "." ++ suffix

end PushKeeper.Files
