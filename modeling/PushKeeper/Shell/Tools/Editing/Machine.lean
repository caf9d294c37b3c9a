import PushKeeper.Shell.Tools.Basic
import PushKeeper.Shell.Tools.Editing.Order

namespace PushKeeper.Shell.Tools.Editing

structure Line where
  text : Bytes
  ended : Bool

def Line.ofText (text : Bytes) : List Line :=
  (linesOf text).map fun line => ⟨withoutEnd line, line.getLast? = some '\n'⟩

def Line.with (a b : Line) : Line := ⟨a.text ++ '\n' :: b.text, b.ended⟩

structure Machine where
  rest : List Line
  number : Nat
  space : Bytes
  ended : Bool
  held : Line
  queue : List Bytes
  exchanged : Bool
  active : List (Nat × Option Nat)
  lastForm : Option Form
  output : List Bytes
  owed : Bool
  stored : List (Bytes × Bytes)

def Machine.start (lines : List Line) (held : Line) : Machine :=
  ⟨lines, 0, [], true, held, [], false, [], none, [], false, []⟩

namespace Machine

def emit (m : Machine) (cs : Bytes) : Machine :=
  { m with output := cs :: (if m.owed then ['\n'] :: m.output else m.output), owed := false }

def emitLine (m : Machine) (cs : Bytes) : Machine :=
  if m.ended then m.emit (cs ++ ['\n']) else { m.emit cs with owed := true }

def store (m : Machine) (file : Bytes) : Machine :=
  if file = "/dev/stdout".toList then m.emitLine m.space
  else { m with stored := m.stored ++ [(file, m.space ++ ['\n'])] }

def current (m : Machine) : Line := ⟨m.space, m.ended⟩

def work (m : Machine) (line : Line) : Machine := { m with space := line.text, ended := line.ended }

def flush (m : Machine) : Machine :=
  { m.queue.foldl emit m with queue := [] }

def read? (m : Machine) : Option (Line × Machine) :=
  match m.rest with
  | [] => none
  | line :: rest =>
    some (line, { m.flush with rest, number := m.number + 1, ended := line.ended })

def formOf (m : Machine) (f : Option Form) : Option Form := f.or m.lastForm

def isAt (m : Machine) : Address → Bool × Machine
  | .line n => (m.number = n, m)
  | .last => (m.rest.isEmpty, m)
  | .every first step =>
    (if step = 0 then m.number = first else first ≤ m.number && (m.number - first) % step = 0, m)
  | .form f =>
    match m.formOf f with
    | none => (false, m)
    | some f => ((f.find? (.atStart m.space)).isSome, { m with lastForm := some f })

def endOf (m : Machine) : Limit → Option Nat
  | .address (.line n) => some n
  | .address _ => none
  | .after count => some (m.number + count)
  | .multiple n => some (if n = 0 then m.number else (m.number + n - 1) / n * n)

def begin (m : Machine) (id : Nat) (limit : Limit) : Machine :=
  match m.endOf limit with
  | some last => if last ≤ m.number then m else { m with active := (id, some last) :: m.active }
  | none => { m with active := (id, none) :: m.active }

def endRange (m : Machine) (id : Nat) : Machine :=
  { m with active := m.active.filter (·.1 ≠ id) }

def isIn (m : Machine) (o : Order) : Bool × Machine :=
  match o.target.first, o.target.limit with
  | none, _ => (true, m)
  | some a, none => m.isAt a
  | some a, some limit =>
    let starts (m : Machine) : Bool × Machine :=
      match m.isAt a with
      | (true, m) => (true, m.begin o.id limit)
      | (false, m) => (false, m)
    match m.active.lookup o.id with
    | some (some last) =>
      if m.number < last then (true, m)
      else if m.number = last then (true, m.endRange o.id)
      else starts (m.endRange o.id)
    | some none =>
      match limit with
      | .address b =>
        let (isEnd, m) := m.isAt b
        (true, if isEnd then m.endRange o.id else m)
      | _ => (true, m)
    | none => starts m

def isMeant (m : Machine) (o : Order) : Bool × Machine :=
  let (found, m) := m.isIn o
  (found != o.target.opposite, m)

structure Shift where
  all : Option Char
  one : Option Char

def shiftChar (c shift : Char) : Char :=
  if shift = 'U' || shift = 'u' then c.toUpper else c.toLower

def shiftText (s : Shift) : Bytes → Bytes × Shift
  | [] => ([], s)
  | c :: cs =>
    let shifted := match s.one, s.all with
      | some one, _ => shiftChar c one
      | none, some all => shiftChar c all
      | none, none => c
    let (rest, after) := shiftText { s with one := none } cs
    (shifted :: rest, after)

def replacement (whole : Bytes) (groups : List (Nat × Bytes)) : Shift → List Part → Bytes
  | _, [] => []
  | s, .shift c :: parts =>
    let s : Shift := if c = 'u' || c = 'l' then { s with one := some c }
      else if c = 'E' then ⟨none, none⟩ else ⟨some c, none⟩
    replacement whole groups s parts
  | s, .text cs :: parts =>
    let (cs, s) := shiftText s cs
    cs ++ replacement whole groups s parts
  | s, .group n :: parts =>
    let (cs, s) := shiftText s (if n = 0 then whole else (groups.lookup n).getD [])
    cs ++ replacement whole groups s parts

/-- A line with texts exchanged, and whether any was; `count` of them have been found before `spot`.
An empty text right after one that was found does not count. -/
def exchangeFrom (e : Exchange) (f : Form) : Nat → Nat → Bool → Form.Spot → Bytes × Bool
  | 0, _, _, spot => (spot.rest, false)
  | fuel + 1, count, isAfter, spot =>
    match f.find? spot with
    | none => (spot.rest, false)
    | some (a, b) =>
      let before := spot.rest.take (a.place - spot.place)
      let whole := a.rest.take (b.place - a.place)
      let here : Form.Spot := { b with groups := [] }
      let skip (text : Bytes) (count : Nat) (done : Bool) : Bytes × Bool :=
        if whole.isEmpty then
          match here.next? with
          | some (c, next) =>
            let (rest, more) := exchangeFrom e f fuel count false next
            (before ++ text ++ c :: rest, done || more)
          | none => (before ++ text, done)
        else
          let (rest, more) := exchangeFrom e f fuel count true here
          (before ++ text ++ rest, done || more)
      if whole.isEmpty && isAfter && a.place = spot.place then skip [] count false
      else if count + 1 < e.number then skip whole (count + 1) false
      else
        let new := replacement whole b.groups ⟨none, none⟩ e.parts
        if e.all then skip new (count + 1) true else (before ++ new ++ b.rest, true)

def exchange (m : Machine) (e : Exchange) : Machine :=
  match m.formOf e.form with
  | none => m
  | some f =>
    let (space, done) := exchangeFrom e f (m.space.length + 2) 0 false (.atStart m.space)
    let m := { m with lastForm := some f }
    if !done then m
    else
      let m := { m with space, exchanged := true }
      let m := if e.prints then m.emitLine space else m
      match e.file with
      | some file => m.store file
      | none => m

def visible (c : Char) : Bytes :=
  if c = '\\' then ['\\', '\\'] else if isHidden c then unhidden c else [c]

def wrapped (width : Nat) : Nat → List Bytes → List Bytes → Bytes
  | _, line, [] => line.reverse.flatten ++ ['$', '\n']
  | used, line, piece :: pieces =>
    if width < used + piece.length + 1 then
      line.reverse.flatten ++ ['\\', '\n'] ++ wrapped width piece.length [piece] pieces
    else wrapped width (used + piece.length) (piece :: line) pieces

def shownWidth : Nat := 70

inductive Ending
  | done
  | dropped
  | again
  | quit (status : Nat) (silently : Bool)

def afterBlock : Nat → List Order → List Order
  | _, [] => []
  | depth, o :: rest =>
    match o.action with
    | .opens => afterBlock (depth + 1) rest
    | .closes => match depth with
      | 0 => rest
      | depth + 1 => afterBlock depth rest
    | _ => afterBlock depth rest

def afterLabel (orders : List Order) (name : Bytes) : List Order :=
  let isLabel (o : Order) : Bool := match o.action with
    | .label n => n = name
    | _ => false
  if name.isEmpty then [] else (orders.dropWhile (!isLabel ·)).drop 1

def follow (quiet : Bool) (contents : Bytes → Bytes) (orders : List Order) :
    Nat → List Order → Machine → Option (Ending × Machine)
  | 0, _, _ => none
  | _, [], m => some (.done, m)
  | fuel + 1, o :: rest, m =>
    let (isMeant, m) := m.isMeant o
    let goOn (m : Machine) : Option (Ending × Machine) :=
      follow quiet contents orders fuel rest m
    let jump (name : Bytes) (m : Machine) : Option (Ending × Machine) :=
      follow quiet contents orders fuel (afterLabel orders name) m
    if !isMeant then
      match o.action with
      | .opens => follow quiet contents orders fuel (afterBlock 0 rest) m
      | _ => goOn m
    else
      match o.action with
      | .opens => goOn m
      | .closes => goOn m
      | .label _ => goOn m
      | .none => goOn m
      | .exchange e => goOn (m.exchange e)
      | .translate pairs => goOn { m with space := m.space.map fun c => (pairs.lookup c).getD c }
      | .print => goOn (m.emitLine m.space)
      | .printFirst =>
        if m.space.contains '\n' then goOn (m.emit (m.space.takeWhile (· ≠ '\n') ++ ['\n']))
        else goOn (m.emitLine m.space)
      | .delete => some (.dropped, m)
      | .deleteFirst =>
        if m.space.contains '\n' then
          some (.again, { m with space := (m.space.dropWhile (· ≠ '\n')).drop 1 })
        else some (.dropped, m)
      | .next =>
        if m.rest.isEmpty then some (.done, m)
        else
          let m := if quiet then m else m.emitLine m.space
          match m.read? with
          | some (line, m) => goOn { m with space := line.text }
          | none => some (.done, m)
      | .join =>
        match m.read? with
        | some (line, m) => goOn { m with space := m.space ++ '\n' :: line.text }
        | none => some (.done, m)
      | .quit status silently => some (.quit status silently, m)
      | .append text => goOn { m with queue := m.queue ++ [text] }
      | .insert text => goOn (m.emit text)
      | .change text =>
        let goesOn := o.target.limit.isSome && !o.target.opposite && (m.active.lookup o.id).isSome
        some (.dropped, if goesOn then m else m.emit text)
      | .number => goOn (m.emit (Text.Numeral.digits m.number ++ ['\n']))
      | .hold adds => goOn { m with held := if adds then m.held.with m.current else m.current }
      | .recall adds => goOn (m.work (if adds then m.current.with m.held else m.held))
      | .swap => goOn { m.work m.held with held := m.current }
      | .clear => goOn { m with space := [] }
      | .show => goOn (m.emit (wrapped shownWidth 0 [] (m.space.map visible)))
      | .branch name => jump name m
      | .branchIf wanted name =>
        let jumps := m.exchanged = wanted
        let m := { m with exchanged := false }
        if jumps then jump name m else goOn m
      | .include file => goOn { m with queue := m.queue ++ [contents file] }
      | .store file => goOn (m.store file)

def run (quiet : Bool) (contents : Bytes → Bytes) (orders : List Order) :
    Nat → Bool → Machine → Option (Option Nat × Machine)
  | 0, _, _ => none
  | fuel + 1, again, m =>
    let ready : Option Machine :=
      if again then some m
      else m.read?.map fun (line, m) => { m with space := line.text, exchanged := false }
    match ready with
    | none => some (none, m)
    | some m =>
      let shown (m : Machine) : Machine := (if quiet then m else m.emitLine m.space).flush
      match follow quiet contents orders fuel orders m with
      | none => none
      | some (.done, m) => run quiet contents orders fuel false (shown m)
      | some (.dropped, m) => run quiet contents orders fuel false m.flush
      | some (.again, m) => run quiet contents orders fuel true m.flush
      | some (.quit status silently, m) => some (some status, if silently then m else shown m)

end Machine

end PushKeeper.Shell.Tools.Editing
