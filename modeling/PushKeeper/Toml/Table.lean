import PushKeeper.Toml.Value

namespace PushKeeper.Toml

inductive Passage
  | byHeader
  | byKey
  deriving DecidableEq

namespace Passage

def fresh : Passage → TableKind
  | byHeader => .implied
  | byKey => .dotted

def admits : Passage → TableKind → Bool
  | _, .inline => false
  | byHeader, _ => true
  | byKey, .opened => false
  | byKey, _ => true

end Passage

namespace Members

def get? (ms : Members) (name : String) : Option Value := List.lookup name ms

def replace (ms : Members) (name : String) (v : Value) : Members :=
  ms.map fun (n, w) => if n = name then (n, v) else (n, w)

def add? (ms : Members) (name : String) (v : Value) : Option Members :=
  if (ms.get? name).isSome then none else some (ms ++ [(name, v)])

def alter? (passage : Passage) (change : TableKind → Members → Option Members) :
    List String → TableKind → Members → Option Members
  | [], kind, ms => change kind ms
  | name :: path, _, ms =>
    match ms.get? name with
    | none => do
      let child ← alter? passage change path passage.fresh []
      return ms ++ [(name, .table passage.fresh child)]
    | some (.table kind child) =>
      if passage.admits kind then do
        return ms.replace name (.table kind (← alter? passage change path kind child))
      else none
    | some (.tables elements) => do
      let child ← alter? passage change path .opened (elements.getLastD [])
      return ms.replace name (.tables (elements.dropLast ++ [child]))
    | some _ => none

/-- Gives a key of one or more names a value, in a table of a kind. A dotted key adds only to tables
that dotted keys have made. -/
def assign? (path : List String) (v : Value) (kind : TableKind) (ms : Members) : Option Members :=
  match path.reverse with
  | [] => none
  | name :: before =>
    alter? .byKey
      (fun kind ms => if before.isEmpty || kind = .dotted then ms.add? name v else none)
      before.reverse kind ms

def openTable? (path : List String) (ms : Members) : Option Members :=
  match path.reverse with
  | [] => none
  | name :: before =>
    alter? .byHeader
      (fun _ ms =>
        match ms.get? name with
        | none => some (ms ++ [(name, .table .opened [])])
        | some (.table .implied child) => some (ms.replace name (.table .opened child))
        | some _ => none)
      before.reverse .opened ms

def openElement? (path : List String) (ms : Members) : Option Members :=
  match path.reverse with
  | [] => none
  | name :: before =>
    alter? .byHeader
      (fun _ ms =>
        match ms.get? name with
        | none => some (ms ++ [(name, .tables [[]])])
        | some (.tables elements) => some (ms.replace name (.tables (elements ++ [[]])))
        | some _ => none)
      before.reverse .opened ms

def ofPairs? (pairs : List (List String × Value)) : Option Members :=
  pairs.foldlM (fun ms (path, v) => assign? path v .opened ms) []

end Members

inductive Statement
  | pair (path : List String) (value : Value)
  | header (path : List String)
  | element (path : List String)

structure Draft where
  root : Members
  under : List String

namespace Draft

def add? (d : Draft) : Statement → Option Draft
  | .pair path v => do
    let root ← Members.alter? .byHeader (Members.assign? path v) d.under .opened d.root
    return { d with root }
  | .header path => do return ⟨← Members.openTable? path d.root, path⟩
  | .element path => do return ⟨← Members.openElement? path d.root, path⟩

def ofStatements? (ss : List Statement) : Option Members :=
  (ss.foldlM add? ⟨[], []⟩).map Draft.root

end Draft

end PushKeeper.Toml
