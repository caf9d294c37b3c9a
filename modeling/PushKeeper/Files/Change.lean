import PushKeeper.Files.Tree

namespace PushKeeper.Files

inductive Change
  | makeDirectory (path : String)
  | write (path : String) (bytes : ByteArray)
  | remove (path : String)
  deriving DecidableEq

def Place.path (p : Place) : String :=
  "/" ++ "/".intercalate p

def Change.ofNode (p : Place) : Node → Change
  | .directory => .makeDirectory p.path
  | .file _ bytes => .write p.path bytes

def Tree.changesTo (before after : Tree) : List Change :=
  let made := after.nodes.reverse.filterMap fun (p, node) =>
    if before.node? p = some node then none else some (.ofNode p node)
  let gone := before.nodes.filterMap fun (p, node) =>
    match node, after.node? p with
    | .file .., none => some (.remove p.path)
    | _, _ => none
  made ++ gone

end PushKeeper.Files
