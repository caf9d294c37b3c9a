import PushKeeper.Shell.Bytes

namespace PushKeeper.Shell

structure Mark where
  char : Char
  active : Bool
  deriving DecidableEq

def Mark.is (m : Mark) (c : Char) : Bool := m.active && m.char == c

def settled : List Mark → List Mark
  | [] => []
  | [m] => [if m.is '\\' then ⟨'\\', false⟩ else m]
  | m :: n :: rest =>
    if m.is '\\' then ⟨n.char, false⟩ :: settled rest else m :: settled (n :: rest)

def kinds : List (String × (Char → Bool)) :=
  [(":alnum:]", Char.isAlphanum), (":cntrl:]", fun c => c.toNat < 32 || c.toNat = 127),
    (":lower:]", Char.isLower), (":space:]", fun c => c = ' ' || (9 ≤ c.toNat && c.toNat ≤ 13)),
    (":alpha:]", Char.isAlpha), (":digit:]", Char.isDigit),
    (":print:]", fun c => 32 ≤ c.toNat && c.toNat < 127), (":upper:]", Char.isUpper),
    (":blank:]", fun c => c = ' ' || c = '\t'),
    (":graph:]", fun c => 32 < c.toNat && c.toNat < 127),
    (":punct:]", fun c => 32 < c.toNat && c.toNat < 127 && !c.isAlphanum),
    (":xdigit:]", fun c =>
      c.isDigit || ('a' ≤ c && c ≤ 'f') || ('A' ≤ c && c ≤ 'F'))]

def kindAt? (marks : List Mark) : Option ((Char → Bool) × List Mark) :=
  (kinds.find? fun (name, _) => (name.toList.map (Mark.mk · true)).isPrefixOf marks).map
    fun (name, holds) => (holds, marks.drop name.length)

def signedByte (c : Char) : Int := (c.toNat : Int).bmod 256

def inSet? (c : Char) : Nat → List Mark → Option (Bool × List Mark)
  | 0, _ => none
  | _, [] => none
  | fuel + 1, m :: rest =>
    let (found, rest) : Bool × List Mark :=
      match if m.is '[' then kindAt? rest else none with
      | some (holds, rest) => (holds c, rest)
      | none =>
        match rest with
        | dash :: last :: after =>
          if dash.is '-' && !last.is ']' then
            (signedByte m.char ≤ signedByte c && signedByte c ≤ signedByte last.char, after)
          else (m.char == c, rest)
        | rest => (m.char == c, rest)
    match rest with
    | [] => none
    | n :: after =>
      if n.is ']' then some (found, after)
      else (inSet? c fuel (n :: after)).map fun (more, after) => (found || more, after)

def matchesWith (fuel : Nat) (pattern : List Mark) (cs : Bytes) : Bool :=
  match fuel with
  | 0 => false
  | fuel + 1 =>
    match pattern, cs with
    | [], cs => cs.isEmpty
    | m :: rest, cs =>
      if m.is '*' then
        matchesWith fuel rest cs ||
          match cs with
          | [] => false
          | _ :: cs => matchesWith fuel (m :: rest) cs
      else
        match cs with
        | [] => false
        | c :: cs =>
          if m.is '?' then matchesWith fuel rest cs
          else if m.is '[' then
            let (negated, set) : Bool × List Mark := match rest with
              | n :: set => if n.is '!' then (true, set) else (false, n :: set)
              | [] => (false, [])
            match inSet? c set.length set with
            | some (found, rest) => found != negated && matchesWith fuel rest cs
            | none => c == '[' && matchesWith fuel rest cs
          else m.char == c && matchesWith fuel rest cs

def fits (pattern : List Mark) (cs : Bytes) : Bool :=
  let pattern := settled pattern
  matchesWith (pattern.length + cs.length + 1) pattern cs

def cutFront (longest : Bool) (pattern : List Mark) (cs : Bytes) : Bytes :=
  let lengths := List.range (cs.length + 1)
  match (if longest then lengths.reverse else lengths).find? fun n => fits pattern (cs.take n) with
  | some n => cs.drop n
  | none => cs

def cutBack (longest : Bool) (pattern : List Mark) (cs : Bytes) : Bytes :=
  let lengths := List.range (cs.length + 1)
  match (if longest then lengths else lengths.reverse).find? fun n => fits pattern (cs.drop n) with
  | some n => cs.take n
  | none => cs

end PushKeeper.Shell
