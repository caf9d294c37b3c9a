import PushKeeper.Text.Numeral

namespace PushKeeper.Shell

abbrev Bytes := List Char

def inOrder (a b : Bytes) : Bool := !decide (b < a)

def bytesOf (s : String) : Bytes :=
  s.toUTF8.toList.map fun b => Char.ofNat b.toNat

def packed (cs : Bytes) : ByteArray :=
  ⟨(cs.map fun c => c.toNat.toUInt8).toArray⟩

def unpacked (b : ByteArray) : Bytes :=
  b.toList.map fun x => Char.ofNat x.toNat

def textOf (cs : Bytes) : String :=
  (String.fromUTF8? (packed cs)).getD (String.ofList cs)

def joinWords (words : List Bytes) : Bytes :=
  [' '].intercalate words

def isNameStart (c : Char) : Bool := c.isAlpha || c == '_'

def isNameChar (c : Char) : Bool := c.isAlphanum || c == '_'

def isName (cs : Bytes) : Bool :=
  match cs with
  | c :: _ => isNameStart c && cs.all isNameChar
  | [] => false

def splitEquals? (cs : Bytes) : Option (Bytes × Bytes) :=
  if cs.contains '=' then
    some (cs.takeWhile (· ≠ '='), (cs.dropWhile (· ≠ '=')).drop 1)
  else none

def assignment? (cs : Bytes) : Option (Bytes × Bytes) :=
  (splitEquals? cs).filter fun (name, _) => isName name

def quotedRun (run : Bytes) : Bytes :=
  if run.head? = some '\'' then '"' :: run ++ ['"'] else '\'' :: run ++ ['\'']

def singleQuoted (cs : Bytes) : Bytes :=
  let runs := (cs.splitBy fun a b => (a = '\'') == (b = '\'')).flatMap quotedRun
  if cs.isEmpty || cs.head? = some '\'' then '\'' :: '\'' :: runs else runs

def linesOf : List Char → List Bytes
  | [] => []
  | c :: cs =>
    if c = '\n' then [c] :: linesOf cs
    else
      match linesOf cs with
      | [] => [[c]]
      | line :: lines => (c :: line) :: lines

end PushKeeper.Shell
