import PushKeeper.Shell.Bytes

namespace PushKeeper.Shell.Tools

def isHidden (c : Char) : Bool := c.toNat < 32 || 127 ≤ c.toNat

def unhidden (c : Char) : Bytes :=
  let digit (n : Nat) : Char := Char.ofNat (48 + n % 8)
  let shown : Bytes := match c with
    | '\x07' => ['a']
    | '\x08' => ['b']
    | '\t' => ['t']
    | '\n' => ['n']
    | '\x0b' => ['v']
    | '\x0c' => ['f']
    | '\r' => ['r']
    | c => [digit (c.toNat / 64), digit (c.toNat / 8), digit c.toNat]
  '\\' :: shown

def inSingleQuotes (inside : Bool) : Bytes → Bytes
  | [] => ['\'']
  | c :: cs =>
    if isHidden c then
      (if inside then [] else ['\'', '$', '\'']) ++ unhidden c ++ inSingleQuotes true cs
    else if c = '\'' then ['\'', '\\', '\'', '\''] ++ inSingleQuotes false cs
    else (if inside then ['\'', '\''] else []) ++ c :: inSingleQuotes false cs

def isFree (c : Char) : Bool :=
  c.isAlphanum || ['%', '+', ',', '-', '.', '/', ':', ']', '_', ' ', '\''].contains c

def named (cs : Bytes) : Bytes :=
  if cs.contains '\'' && cs.all isFree then '"' :: cs ++ ['"']
  else '\'' :: inSingleQuotes false cs

def isTouchy (c : Char) : Bool :=
  isHidden c || [' ', '!', '"', '$', '&', '(', ')', '*', ';', '<', '=', '>', '?', '[', '\\', '^', '\x60',
    '|', '\'', ':'].contains c

def sheltered (cs : Bytes) : Bytes :=
  let needs := match cs with
    | [] => true
    | ['\x7b'] => true
    | ['\x7d'] => true
    | c :: _ => c = '#' || c = '~' || cs.any isTouchy
  if needs then named cs else cs

def cited (cs : Bytes) : Bytes :=
  let safe (c : Char) : Bytes :=
    if isHidden c then unhidden c else if c = '\'' || c = '\\' then ['\\', c] else [c]
  '\'' :: cs.flatMap safe ++ ['\'']

def marked (cs : Bytes) : Bytes := '\'' :: cs ++ ['\'']

end PushKeeper.Shell.Tools
