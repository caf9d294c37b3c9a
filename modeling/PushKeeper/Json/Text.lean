import PushKeeper.Json.Fault

namespace PushKeeper.Json.Text

inductive Piece
  | char (c : Char)
  | unit (n : Nat)
  deriving DecidableEq

def hexDigit? (c : Char) : Option Nat :=
  let n := c.toNat
  if 48 ≤ n ∧ n ≤ 57 then some (n - 48)
  else if 65 ≤ n ∧ n ≤ 70 then some (n - 55)
  else if 97 ≤ n ∧ n ≤ 102 then some (n - 87)
  else none

def unit? (a b c d : Char) : Option Nat := do
  return 4096 * (← hexDigit? a) + 256 * (← hexDigit? b) + 16 * (← hexDigit? c) + (← hexDigit? d)

def escaped? (c : Char) : Option Char :=
  match c with
  | '"' => some '"'
  | '\\' => some '\\'
  | '/' => some '/'
  | 'b' => some '\x08'
  | 'f' => some '\x0c'
  | 'n' => some '\n'
  | 'r' => some '\r'
  | 't' => some '\t'
  | _ => none

def pieces : List Char → Except Fault (List Piece × List Char)
  | [] => .error .malformed
  | '"' :: cs => .ok ([], cs)
  | '\\' :: 'u' :: a :: b :: c :: d :: cs => do
    match unit? a b c d with
    | some n =>
      let (ps, rest) ← pieces cs
      return (.unit n :: ps, rest)
    | none => .error .malformed
  | '\\' :: c :: cs => do
    match escaped? c with
    | some c =>
      let (ps, rest) ← pieces cs
      return (.char c :: ps, rest)
    | none => .error .malformed
  | c :: cs => do
    if c = '\\' || c.toNat < 0x20 then .error .malformed else
      let (ps, rest) ← pieces cs
      return (.char c :: ps, rest)

def isLeading (n : Nat) : Bool := 0xD800 ≤ n && n ≤ 0xDBFF

def isTrailing (n : Nat) : Bool := 0xDC00 ≤ n && n ≤ 0xDFFF

def join : List Piece → Except Fault (List Char)
  | [] => .ok []
  | .char c :: ps => return c :: (← join ps)
  | .unit n :: ps =>
    if isLeading n then
      match ps with
      | .unit m :: ps =>
        if isTrailing m then
          return Char.ofNat (0x10000 + (n - 0xD800) * 1024 + (m - 0xDC00)) :: (← join ps)
        else .error .malformed
      | _ => .error .malformed
    else if isTrailing n then .error .malformed
    else return Char.ofNat n :: (← join ps)

def string (cs : List Char) : Except Fault (String × List Char) := do
  let (ps, rest) ← pieces cs
  return (String.ofList (← join ps), rest)

def skipString (cs : List Char) : Except Fault (List Char) := do
  return (← pieces cs).2

def escape (c : Char) : List Char :=
  if c = '"' then ['\\', '"']
  else if c = '\\' then ['\\', '\\']
  else if c = '\x08' then ['\\', 'b']
  else if c = '\x0c' then ['\\', 'f']
  else if c = '\n' then ['\\', 'n']
  else if c = '\r' then ['\\', 'r']
  else if c = '\t' then ['\\', 't']
  else if c.toNat < 0x20 then
    ['\\', 'u', '0', '0', Text.Quoted.hexDigit (c.toNat / 16), Text.Quoted.hexDigit (c.toNat % 16)]
  else [c]

def quote (s : String) : List Char :=
  '"' :: s.toList.flatMap escape ++ ['"']

end PushKeeper.Json.Text
