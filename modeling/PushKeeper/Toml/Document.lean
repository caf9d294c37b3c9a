import PushKeeper.Toml.Number
import PushKeeper.Toml.Table
import PushKeeper.Toml.Text

namespace PushKeeper.Toml

mutual

def valueWith (fuel depth : Nat) (cs : List Char) : Option (Value × List Char) :=
  match fuel with
  | 0 => none
  | fuel + 1 =>
    match cs with
    | 't' :: 'r' :: 'u' :: 'e' :: cs => some (.boolean true, cs)
    | 'f' :: 'a' :: 'l' :: 's' :: 'e' :: cs => some (.boolean false, cs)
    | '[' :: cs =>
      match depth with
      | 0 => none
      | depth + 1 => (itemsWith fuel depth cs).map fun (items, cs) => (.array items, cs)
    | '\x7b' :: cs =>
      match depth with
      | 0 => none
      | depth + 1 => do
        let (pairs, cs) ← match skipBlanks cs with
          | '\x7d' :: cs => some ([], cs)
          | cs => pairsWith fuel depth cs
        return (.table .inline (← Members.ofPairs? pairs), cs)
    | '"' :: _ => (string cs).map fun (s, cs) => (.string s, cs)
    | '\'' :: _ => (string cs).map fun (s, cs) => (.string s, cs)
    | cs => number cs

def itemsWith (fuel depth : Nat) (cs : List Char) : Option (List Value × List Char) :=
  match fuel with
  | 0 => none
  | fuel + 1 => do
    match ← gap? cs with
    | ']' :: cs => return ([], cs)
    | cs =>
      let (v, cs) ← valueWith fuel depth cs
      match ← gap? cs with
      | ',' :: cs =>
        let (vs, cs) ← itemsWith fuel depth cs
        return (v :: vs, cs)
      | ']' :: cs => return ([v], cs)
      | _ => none

def pairsWith (fuel depth : Nat) (cs : List Char) :
    Option (List (List String × Value) × List Char) :=
  match fuel with
  | 0 => none
  | fuel + 1 => do
    let (path, cs) ← key cs
    match cs with
    | '=' :: cs =>
      let (v, cs) ← valueWith fuel depth (skipBlanks cs)
      match skipBlanks cs with
      | ',' :: cs =>
        let (ps, cs) ← pairsWith fuel depth cs
        return ((path, v) :: ps, cs)
      | '\x7d' :: cs => return ([(path, v)], cs)
      | _ => none
    | _ => none

end

/-- A value. Every two calls take a character. -/
def value (cs : List Char) : Option (Value × List Char) :=
  valueWith (2 * cs.length + 2) deepest cs

def line (cs : List Char) : Option (Option Statement × List Char) :=
  match skipBlanks cs with
  | '[' :: '[' :: cs => do
    match ← key cs with
    | (path, ']' :: ']' :: cs) => return (some (.element path), ← endLine? cs)
    | _ => none
  | '[' :: cs => do
    match ← key cs with
    | (path, ']' :: cs) => return (some (.header path), ← endLine? cs)
    | _ => none
  | cs =>
    match endLine? cs with
    | some rest => some (none, rest)
    | none => do
      match ← key cs with
      | (path, '=' :: cs) =>
        let (v, cs) ← value (skipBlanks cs)
        return (some (.pair path v), ← endLine? cs)
      | _ => none

def linesWith : Nat → List Char → Option (List Statement)
  | 0, _ => none
  | fuel + 1, cs =>
    if cs.isEmpty then some []
    else do
      let (s, cs) ← line cs
      let ss ← linesWith fuel cs
      return s.toList ++ ss

def skipMark : List Char → List Char
  | '\ufeff' :: cs => cs
  | cs => cs

def parse? (text : String) : Option Members := do
  let cs := skipMark text.toList
  Draft.ofStatements? (← linesWith (cs.length + 1) cs)

end PushKeeper.Toml
