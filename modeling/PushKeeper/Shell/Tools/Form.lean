import PushKeeper.Shell.Pattern

namespace PushKeeper.Shell.Tools

inductive Form
  | empty
  | only (c : Char)
  | any
  | oneOf (negated foldsCase : Bool) (set : List Mark)
  | wordLike (negated : Bool)
  | blank (negated : Bool)
  | start
  | finish
  | edge (before after : Option Bool)
  | both (first second : Form)
  | either (first second : Form)
  | repeated (least : Nat) (most : Option Nat) (f : Form)
  | group (number : Nat) (f : Form)
  | again (number : Nat)
  deriving Inhabited

namespace Form

structure Spot where
  place : Nat
  before : Option Char
  rest : Bytes
  groups : List (Nat × Bytes)
  deriving DecidableEq

def Spot.atStart (line : Bytes) : Spot := ⟨0, none, line, []⟩

def Spot.next? (s : Spot) : Option (Char × Spot) :=
  match s.rest with
  | [] => none
  | c :: rest => some (c, { s with place := s.place + 1, before := some c, rest })

def Spot.forward (s : Spot) (count : Nat) : Spot :=
  { s with
    place := s.place + count
    before := ((s.rest.take count).getLast?).or s.before
    rest := s.rest.drop count }

def isWordChar (c : Char) : Bool := c.isAlphanum || c = '_'

def Spot.isEdge (s : Spot) (before after : Option Bool) : Bool :=
  let holds (wanted : Option Bool) (c : Option Char) : Bool :=
    wanted.all (· == c.any isWordChar)
  holds before s.before && holds after s.rest.head?

def isInSet (set : List Mark) (c : Char) : Bool :=
  let marks := set ++ [⟨']', true⟩]
  ((inSet? c marks.length marks).map (·.1)).getD false

def distinct (spots : List Spot) : List Spot := spots.eraseDups

/-- The places after more and more rounds of something, the later ones first; `spots` are those after
`count` rounds. A round has to lead to a place where none has been. -/
def rounds (one : Spot → List Spot) (least : Nat) (most : Option Nat) :
    Nat → Nat → List Spot → List Spot → List Spot
  | 0, _, _, spots => spots
  | fuel + 1, count, seen, spots =>
    let goesOn : Bool := match most with
      | some n => count < n
      | none => true
    let next := if goesOn then distinct (spots.flatMap one) else []
    let next := if count < least then next else next.filter (!seen.contains ·)
    let later := if next.isEmpty then [] else rounds one least most fuel (count + 1) (next ++ seen) next
    if least ≤ count then later ++ spots else later

def ends : Form → Spot → List Spot
  | empty, s => [s]
  | only c, s => step s fun d => c == d
  | any, s => step s fun _ => true
  | oneOf negated foldsCase set, s => step s fun c =>
    let found := isInSet set c || (foldsCase && (isInSet set c.toLower || isInSet set c.toUpper))
    found != negated
  | wordLike negated, s => step s fun c => isWordChar c != negated
  | blank negated, s => step s fun c => c.isWhitespace != negated
  | start, s => if s.place = 0 then [s] else []
  | finish, s => if s.rest.isEmpty then [s] else []
  | edge before after, s => if s.isEdge before after then [s] else []
  | both f g, s => distinct ((f.ends s).flatMap (g.ends))
  | either f g, s => distinct (f.ends s ++ g.ends s)
  | repeated least most f, s =>
    rounds (f.ends) least most (s.rest.length + least + 1) 0 [s] [s]
  | group number f, s => (f.ends s).map fun t =>
    let text := s.rest.take (t.place - s.place)
    { t with groups := (number, text) :: t.groups.filter (·.1 ≠ number) }
  | again number, s =>
    match s.groups.lookup number with
    | some text => if text.isPrefixOf s.rest then [s.forward text.length] else []
    | none => []
where
  step (s : Spot) (fits : Char → Bool) : List Spot :=
    match s.next? with
    | some (c, t) => if fits c then [t] else []
    | none => []

def furthest : List Spot → Option Spot
  | [] => none
  | s :: spots =>
    match furthest spots with
    | none => some s
    | some t => if s.place < t.place then some t else some s

def findFrom? (f : Form) : Nat → Spot → Option (Spot × Spot)
  | 0, _ => none
  | fuel + 1, s =>
    match furthest (f.ends { s with groups := [] }) with
    | some t => some (s, t)
    | none =>
      match s.next? with
      | some (_, t) => f.findFrom? fuel t
      | none => none

def find? (f : Form) (s : Spot) : Option (Spot × Spot) :=
  f.findFrom? (s.rest.length + 1) s

inductive Fault
  | openSet
  | openGroup
  | closedGroup
  | openCount
  | badCount
  | nothingRepeated
  | noGroup
  | trailing
  deriving DecidableEq

def Fault.message : Fault → String
  | openSet => "Unmatched [, [^, [:, [., or [="
  | openGroup => "Unmatched ( or \\("
  | closedGroup => "Unmatched ) or \\)"
  | openCount => "Unmatched \\\x7b"
  | badCount => "Invalid content of \\\x7b\\\x7d"
  | nothingRepeated => "Invalid preceding regular expression"
  | noGroup => "Invalid back reference"
  | trailing => "Trailing backslash"

inductive Sign
  | item (f : Form)
  | repeats (least : Nat) (most : Option Nat)
  | opens
  | closes
  | bar

def setBody? : Nat → List Char → Option (Bytes × List Char)
  | 0, _ => none
  | _, [] => none
  | _, ']' :: rest => some ([], rest)
  | fuel + 1, c :: rest =>
    match c, rest with
    | '[', d :: inner =>
      if d = ':' || d = '.' || d = '=' then
        let name := inner.takeWhile (· ≠ d)
        match inner.drop name.length with
        | _ :: ']' :: after =>
          (setBody? fuel after).map fun (set, rest) => ('[' :: d :: name ++ d :: ']' :: set, rest)
        | _ => (setBody? fuel rest).map fun (set, rest) => ('[' :: set, rest)
      else (setBody? fuel rest).map fun (set, rest) => ('[' :: set, rest)
    | c, rest => (setBody? fuel rest).map fun (set, rest) => (c :: set, rest)

def setAt? (cs : List Char) : Option (Form × List Char) :=
  let (negated, cs) : Bool × List Char := match cs with
    | '^' :: rest => (true, rest)
    | cs => (false, cs)
  match cs with
  | [] => none
  | c :: rest =>
    let body := if c = ']' then (setBody? (rest.length + 1) rest).map fun (set, after) => (']' :: set, after)
      else setBody? (cs.length + 1) cs
    body.map fun (set, after) => (oneOf negated false (set.map (Mark.mk · true)), after)

def countAt? (ending cs : List Char) : Option (Nat × Option Nat × List Char) :=
  let digits (cs : List Char) : Option Nat := if cs.isEmpty then none else String.toNat? (String.ofList cs)
  let low := cs.takeWhile Char.isDigit
  let rest := cs.drop low.length
  match rest with
  | ',' :: rest =>
    let high := rest.takeWhile Char.isDigit
    let after := rest.drop high.length
    if ending.isPrefixOf after then
      some ((digits low).getD 0, digits high, after.drop ending.length)
    else none
  | rest =>
    if ending.isPrefixOf rest then (digits low).map fun n => (n, some n, rest.drop ending.length)
    else none

def wordStart : Form := edge (some false) (some true)

def wordEnd : Form := edge (some true) (some false)

def escapeOf? (c : Char) : Option Form :=
  match c with
  | 'w' => some (wordLike false)
  | 'W' => some (wordLike true)
  | 's' => some (blank false)
  | 'S' => some (blank true)
  | 'b' => some (either wordStart wordEnd)
  | 'B' => some (either (edge (some false) (some false)) (edge (some true) (some true)))
  | '<' => some wordStart
  | '>' => some wordEnd
  | '\x60' => some start
  | '\'' => some finish
  | _ => if '1' ≤ c && c ≤ '9' then some (again (c.toNat - 48)) else none

def signOf? (c : Char) : Option Sign :=
  match c with
  | '(' => some .opens
  | ')' => some .closes
  | '|' => some .bar
  | '+' => some (.repeats 1 none)
  | '?' => some (.repeats 0 (some 1))
  | _ => none

structure Manner where
  extended : Bool
  lenient : Bool

def signs (manner : Manner) : Nat → Bool → List Char → Except Fault (List Sign)
  | 0, _, _ => .ok []
  | _, _, [] => .ok []
  | fuel + 1, first, c :: cs =>
    let extended := manner.extended
    let goOn (sign : Sign) (cs : List Char) : Except Fault (List Sign) := do
      let first := match sign with
        | .opens => true
        | .bar => true
        | .item start => true
        | _ => false
      return sign :: (← signs manner fuel first cs)
    let idle (cs : List Char) : Except Fault (List Sign) :=
      if manner.lenient then goOn (.item empty) cs else throw .nothingRepeated
    let special (c : Char) (cs : List Char) : Except Fault (List Sign) :=
      match signOf? c with
      | some (.repeats least most) =>
        if !first then goOn (.repeats least most) cs
        else if extended then idle cs
        else goOn (.item (only c)) cs
      | some sign => goOn sign cs
      | none => goOn (.item (only c)) cs
    let ending : List Char := if extended then ['\x7d'] else ['\\', '\x7d']
    let counted (cs : List Char) : Except Fault (List Sign) :=
      match countAt? ending cs with
      | some (least, most, rest) =>
        if most.any (· < least) then throw .badCount
        else if first then goOn (.item (only '\x7b')) cs
        else goOn (.repeats least most) rest
      | none =>
        if extended then goOn (.item (only '\x7b')) cs
        else if (List.range cs.length).any fun n => ending.isPrefixOf (cs.drop n) then throw .badCount
        else throw .openCount
    match c, cs with
    | '\\', [] => throw .trailing
    | '\\', d :: rest =>
      if d = '\x7b' then if extended then goOn (.item (only d)) rest else counted rest
      else if (signOf? d).isSome then
        if extended then goOn (.item (only d)) rest else special d rest
      else goOn (.item ((escapeOf? d).getD (only (if d = 'n' then '\n' else d)))) rest
    | '.', cs => goOn (.item any) cs
    | '[', cs =>
      match setAt? cs with
      | some (set, rest) => goOn (.item set) rest
      | none => throw .openSet
    | '*', cs =>
      if !first then goOn (.repeats 0 none) cs
      else if extended then idle cs
      else goOn (.item (only '*')) cs
    | '^', cs => if extended || first then goOn (.item start) cs else goOn (.item (only '^')) cs
    | '$', cs =>
      let isLast := match cs with
        | [] => true
        | '\\' :: ')' :: _ => true
        | '\\' :: '|' :: _ => true
        | _ => false
      if extended || isLast then goOn (.item finish) cs else goOn (.item (only '$')) cs
    | '\x7b', cs => if extended then counted cs else goOn (.item (only c)) cs
    | c, cs => if extended && (signOf? c).isSome then special c cs else goOn (.item (only c)) cs

def repeatedBy (f : Form) : List Sign → Form × List Sign
  | .repeats least most :: rest => repeatedBy (repeated least most f) rest
  | rest => (f, rest)

def ofSigns : Nat → Nat → Form → List Sign → Except Fault (Form × List Sign × Nat)
  | 0, opened, front, rest => .ok (front, rest, opened)
  | _, opened, front, [] => .ok (front, [], opened)
  | fuel + 1, opened, front, sign :: rest =>
    let follow (f : Form) (opened : Nat) (rest : List Sign) :
        Except Fault (Form × List Sign × Nat) :=
      let (f, rest) := repeatedBy f rest
      ofSigns fuel opened (both front f) rest
    match sign with
    | .item (again n) => if n ≤ opened then follow (again n) opened rest else throw .noGroup
    | .item f => follow f opened rest
    | .repeats .. => follow empty opened rest
    | .closes => .ok (front, .closes :: rest, opened)
    | .bar => do
      let (other, rest, opened) ← ofSigns fuel opened empty rest
      return (either front other, rest, opened)
    | .opens => do
      let number := opened + 1
      let (inner, rest, opened) ← ofSigns fuel number empty rest
      match rest with
      | .closes :: rest => follow (group number inner) opened rest
      | _ => throw .openGroup

def ofAllSigns (allowed : Bool) : Nat → Nat → Form → List Sign → Except Fault Form
  | 0, _, front, _ => .ok front
  | fuel + 1, opened, front, signs => do
    match ← ofSigns (2 * signs.length + 1) opened front signs with
    | (f, [], _) => return f
    | (f, _ :: rest, opened) =>
      if allowed then ofAllSigns allowed fuel opened (both f (only ')')) rest
      else throw .closedGroup

def ofText (manner : Manner) (cs : Bytes) : Except Fault Form := do
  let signs ← signs manner (cs.length + 1) true cs
  ofAllSigns (manner.extended && manner.lenient) (signs.length + 1) 0 empty signs

def groupCount : Form → Nat
  | both f g => f.groupCount + g.groupCount
  | either f g => f.groupCount + g.groupCount
  | repeated _ _ f => f.groupCount
  | group _ f => f.groupCount + 1
  | _ => 0

def anyCase : Form → Form
  | only c => if c.isAlpha then either (only c.toLower) (only c.toUpper) else only c
  | oneOf negated _ set => oneOf negated true set
  | both f g => both f.anyCase g.anyCase
  | either f g => either f.anyCase g.anyCase
  | repeated least most f => repeated least most f.anyCase
  | group n f => group n f.anyCase
  | f => f

def exactly : Bytes → Form
  | [] => empty
  | c :: cs => both (only c) (exactly cs)

end Form

end PushKeeper.Shell.Tools
