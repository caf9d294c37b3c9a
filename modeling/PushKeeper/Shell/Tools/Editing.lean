import PushKeeper.Shell.Tools.Editing.Machine
import PushKeeper.Shell.Tools.Editing.Reader

namespace PushKeeper.Shell.Tools

namespace Editing

def placeIn (place : Nat) : Nat → List Bytes → Nat × Nat
  | number, [] => (number, place)
  | number, [_] => (number, place)
  | number, text :: texts =>
    if place ≤ text.length then (number, place)
    else placeIn (place - text.length - 1) (number + 1) texts

def complaint (texts : List Bytes) (m : Misreading) : String :=
  let (number, place) := placeIn m.read 1 texts
  let place := match m.fault with
    | .openBlock => 0
    | _ => place
  "-e expression #" ++ Text.Numeral.render number ++ ", char " ++ Text.Numeral.render place ++ ": "
    ++ m.fault.message

def Order.goal? (o : Order) : Option Bytes :=
  match o.action with
  | .branch name => some name
  | .branchIf _ name => some name
  | _ => none

def Order.label? (o : Order) : Option Bytes :=
  match o.action with
  | .label name => some name
  | _ => none

def Order.file? (o : Order) : Option Bytes :=
  match o.action with
  | .store file => some file
  | .exchange e => e.file
  | _ => none

def lostLabel? (orders : List Order) : Option Bytes :=
  (orders.filterMap Order.goal?).find? fun name =>
    !name.isEmpty && !(orders.filterMap Order.label?).contains name

def Order.repeatsForm (o : Order) : Bool :=
  let inAddress : Bool := match o.target.first with
    | some (.form none) => true
    | _ => false
  let inAction : Bool := match o.action with
    | .exchange e => e.form.isNone
    | _ => false
  inAddress || inAction

def Order.namesForm (o : Order) : Bool :=
  let inAddress : Bool := match o.target.first with
    | some (.form (some _)) => true
    | _ => false
  let inAction : Bool := match o.action with
    | .exchange e => e.form.isSome
    | _ => false
  inAddress || inAction

def plainOption (word : Bytes) : List Bytes :=
  let named (front : String) : Option Bytes :=
    if front.toList.isPrefixOf word then some (word.drop front.length) else none
  match textOf word with
  | "--quiet" => [['-', 'n']]
  | "--silent" => [['-', 'n']]
  | "--regexp-extended" => [['-', 'E']]
  | "--separate" => [['-', 's']]
  | "--in-place" => [['-', 'I', '.']]
  | _ =>
    match named "--expression=", named "--file=", named "--in-place=" with
    | some text, _, _ => [['-', 'e'], text]
    | none, some file, _ => [['-', 'f'], file]
    | none, none, some ending => ['-' :: 'I' :: '.' :: ending]
    | none, none, none =>
      let front := word.takeWhile ['-', 'n', 'E', 'r', 's', 'u', 'z'].contains
      match front.head?, word.drop front.length with
      | some '-', 'i' :: ending => [front ++ 'I' :: '.' :: ending]
      | _, _ => [word]

structure Commission where
  quiet : Bool
  extended : Bool
  apart : Bool
  inPlace : Option Bytes
  texts : List Bytes
  files : List Bytes

def giveUp {α : Type} (name : Bytes) (status : Nat) (text : Bytes) : Run α := do
  report name text
  setStatus status
  throw .exited

def givenText (name : Bytes) : Char × Bytes → Run (Option Bytes)
  | ('e', text) => return some text
  | ('f', file) => do
    match ← readInput file with
    | .ok text => return some (withoutEnd text)
    | .error fault =>
      giveUp name 1 (bytesOf "couldn't open file " ++ file ++ bytesOf (": " ++ fault.reason))
  | _ => return none

def commissionOf (name : Bytes) (arguments : List Bytes) : Run Commission := do
  let (options, words) ← optionsIn name 1 true "nErsuz" "efI" (arguments.flatMap plainOption)
  let has (c : Char) : Bool := hasLetter options c
  let given := (← options.mapM (givenText name)).filterMap id
  let (texts, files) := if given.isEmpty then (words.take 1, words.drop 1) else (given, words)
  if texts.isEmpty then
    let _ ← write 2 (bytesOf "Usage: " ++ name
      ++ bytesOf " [OPTION]... \x7bscript-only-if-no-other-script\x7d [input-file]...\n")
    setStatus 1
    throw .exited
  let isQuiet := has 'n' || texts.head?.any "#n\n".toList.isPrefixOf
  return ⟨isQuiet, has 'E' || has 'r', has 's' || has 'I', (wordWith? options 'I').map (·.drop 1),
    texts, files⟩

def Commission.orders (c : Commission) (name : Bytes) : Run (List Order) := do
  match ordersOf c.extended (['\n'].intercalate c.texts) with
  | .error m => giveUp name 1 (bytesOf (complaint c.texts m))
  | .ok orders =>
    if let some label := lostLabel? orders then
      giveUp name 4 (bytesOf "can't find label for jump to " ++ '\x60' :: label ++ ['\''])
    if (orders.takeWhile (!·.namesForm)).any Order.repeatsForm then
      giveUp name 1 (bytesOf "-e expression #1, char 0: no previous regular expression")
    return orders

def Commission.inputs (c : Commission) (name : Bytes) : Run (List (Bytes × Bytes) × Bool) := do
  let files := if c.files.isEmpty then [['-']] else c.files
  let read (file : Bytes) : Run (Option (Bytes × Bytes)) := do
    match ← readInput file with
    | .ok text => return some (file, text)
    | .error .isDirectory =>
      if c.inPlace.isSome then
        giveUp name 4 (bytesOf "couldn't edit " ++ file ++ bytesOf ": not a regular file")
      else giveUp name 4 (bytesOf "read error on " ++ file ++ bytesOf ": Is a directory")
    | .error fault =>
      reportFault name (bytesOf "can't read " ++ file) fault
      return none
  let texts ← files.mapM read
  return (texts.filterMap id, texts.all Option.isSome)

def rewrite (file text : Bytes) : Run Unit :=
  modify fun s =>
    match s.tree.write (textOf file) (packed text) with
    | .ok tree => { s with tree }
    | .error _ => s

def Commission.deliver (c : Commission) (file old new : Bytes) : Run Unit := do
  match c.inPlace with
  | none => give new
  | some ending =>
    unless ending.isEmpty do rewrite (file ++ ending) old
    rewrite file new

def patience : Nat := 200000

def Machine.ready (orders : List Order) (held : Line) (lines : List Line) : Machine :=
  let begins (o : Order) : Bool := match o.target.first with
    | some (.line 0) => true
    | _ => false
  { Machine.start lines held with active := (orders.filter begins).map fun o => (o.id, none) }

def Commission.editAll (c : Commission) (orders : List Order) (contents : Bytes → Bytes) :
    Line → List (Bytes × Bytes × List Line) → Run (List (Bytes × Bytes) × Option Nat)
  | _, [] => return ([], none)
  | held, (file, old, lines) :: rest => do
    let start := Machine.ready orders held lines
    match start.run c.quiet contents orders (patience + lines.length) false with
    | none => throw .hung
    | some (quits, m) =>
      c.deliver file old m.output.reverse.flatten
      match quits with
      | some status => return (m.stored, some status)
      | none => do
        let (stored, status) ← c.editAll orders contents m.held rest
        return (m.stored ++ stored, status)

end Editing

open Editing in
def edit : Tool := fun _ name arguments => do
  let c ← commissionOf name arguments
  let orders ← c.orders name
  let (inputs, complete) ← c.inputs name
  let s ← get
  let contents (file : Bytes) : Bytes := (s.fileText (textOf file)).toOption.getD []
  let texts : List (Bytes × Bytes × List Line) :=
    if c.apart then inputs.map fun (file, text) => (file, text, Line.ofText text)
    else [([], [], inputs.flatMap fun (_, text) => Line.ofText text)]
  let (stored, left) ← c.editAll orders contents ⟨[], true⟩ texts
  for file in (orders.filterMap Order.file?).eraseDups.filter (· ≠ "/dev/stdout".toList) do
    rewrite file ((stored.filter (·.1 = file)).flatMap (·.2))
  return (left.filter (· ≠ 0)).getD (if complete then 0 else 2)

end PushKeeper.Shell.Tools
