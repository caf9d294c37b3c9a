import PushKeeper.Json.Text

namespace PushKeeper.Toml

def isPlain (c : Char) : Bool :=
  c == '\t' || (0x20 ≤ c.toNat && c.toNat != 0x7F)

def isBlank (c : Char) : Bool :=
  c == ' ' || c == '\t'

def skipBlanks (cs : List Char) : List Char :=
  cs.dropWhile isBlank

def afterNewline? : List Char → Option (List Char)
  | '\n' :: cs => some cs
  | '\r' :: '\n' :: cs => some cs
  | _ => none

def skipComment (cs : List Char) : List Char :=
  match cs with
  | '#' :: cs => cs.dropWhile isPlain
  | cs => cs

def endLine? (cs : List Char) : Option (List Char) :=
  match skipComment (skipBlanks cs) with
  | [] => some []
  | cs => afterNewline? cs

def skipGap (fuel : Nat) (cs : List Char) : Option (List Char) :=
  match fuel with
  | 0 => none
  | fuel + 1 =>
    match skipBlanks cs with
    | '#' :: cs => (afterNewline? (cs.dropWhile isPlain)).bind (skipGap fuel)
    | '\n' :: cs => skipGap fuel cs
    | '\r' :: cs => (afterNewline? ('\r' :: cs)).bind (skipGap fuel)
    | cs => some cs

def gap? (cs : List Char) : Option (List Char) :=
  skipGap (cs.length + 1) cs

def escaped? (c : Char) : Option Char :=
  match c with
  | 'b' => some '\x08'
  | 'f' => some '\x0c'
  | 'n' => some '\n'
  | 'r' => some '\r'
  | 't' => some '\t'
  | '\\' => some '\\'
  | '"' => some '"'
  | _ => none

def charOf? (n : Nat) : Option Char :=
  if n.isValidChar then some (Char.ofNat n) else none

def fourDigits? (a b c d : Char) : Option Char := do
  charOf? (← Json.Text.unit? a b c d)

def eightDigits? (a b c d e f g h : Char) : Option Char := do
  charOf? (65536 * (← Json.Text.unit? a b c d) + (← Json.Text.unit? e f g h))

def prepend (c : Char) (read : Option (List Char × List Char)) : Option (List Char × List Char) :=
  read.map fun (cs, rest) => (c :: cs, rest)

def basic : List Char → Option (List Char × List Char)
  | [] => none
  | '"' :: cs => some ([], cs)
  | '\\' :: 'u' :: a :: b :: c :: d :: cs => do prepend (← fourDigits? a b c d) (basic cs)
  | '\\' :: 'U' :: a :: b :: c :: d :: e :: f :: g :: h :: cs => do
    prepend (← eightDigits? a b c d e f g h) (basic cs)
  | '\\' :: c :: cs => do prepend (← escaped? c) (basic cs)
  | c :: cs => if c != '\\' && isPlain c then prepend c (basic cs) else none

def literal : List Char → Option (List Char × List Char)
  | [] => none
  | '\'' :: cs => some ([], cs)
  | c :: cs => if isPlain c then prepend c (literal cs) else none

def endsLine (cs : List Char) : Bool :=
  (afterNewline? (skipBlanks cs)).isSome

def multiBasic : Bool → List Char → Option (List Char × List Char)
  | true, ' ' :: cs => multiBasic true cs
  | true, '\t' :: cs => multiBasic true cs
  | true, '\n' :: cs => multiBasic true cs
  | true, '\r' :: '\n' :: cs => multiBasic true cs
  | _, [] => none
  | _, '"' :: '"' :: '"' :: '"' :: '"' :: cs => some (['"', '"'], cs)
  | _, '"' :: '"' :: '"' :: '"' :: cs => some (['"'], cs)
  | _, '"' :: '"' :: '"' :: cs => some ([], cs)
  | _, '\n' :: cs => prepend '\n' (multiBasic false cs)
  | _, '\r' :: '\n' :: cs => prepend '\n' (multiBasic false cs)
  | _, '\\' :: 'u' :: a :: b :: c :: d :: cs => do
    prepend (← fourDigits? a b c d) (multiBasic false cs)
  | _, '\\' :: 'U' :: a :: b :: c :: d :: e :: f :: g :: h :: cs => do
    prepend (← eightDigits? a b c d e f g h) (multiBasic false cs)
  | _, '\\' :: c :: cs =>
    if endsLine (c :: cs) then multiBasic true (c :: cs)
    else do prepend (← escaped? c) (multiBasic false cs)
  | _, c :: cs => if c != '\\' && isPlain c then prepend c (multiBasic false cs) else none

def multiLiteral : List Char → Option (List Char × List Char)
  | [] => none
  | '\'' :: '\'' :: '\'' :: '\'' :: '\'' :: cs => some (['\'', '\''], cs)
  | '\'' :: '\'' :: '\'' :: '\'' :: cs => some (['\''], cs)
  | '\'' :: '\'' :: '\'' :: cs => some ([], cs)
  | '\n' :: cs => prepend '\n' (multiLiteral cs)
  | '\r' :: '\n' :: cs => prepend '\n' (multiLiteral cs)
  | c :: cs => if isPlain c then prepend c (multiLiteral cs) else none

def skipFirstNewline (cs : List Char) : List Char :=
  (afterNewline? cs).getD cs

def string (cs : List Char) : Option (String × List Char) :=
  let read : Option (List Char × List Char) := match cs with
    | '"' :: '"' :: '"' :: cs => multiBasic false (skipFirstNewline cs)
    | '"' :: cs => basic cs
    | '\'' :: '\'' :: '\'' :: cs => multiLiteral (skipFirstNewline cs)
    | '\'' :: cs => literal cs
    | _ => none
  read.map fun (s, cs) => (String.ofList s, cs)

def isBare (c : Char) : Bool :=
  c.isAlphanum || c == '-' || c == '_'

def name : List Char → Option (String × List Char)
  | '"' :: cs => (basic cs).map fun (s, cs) => (String.ofList s, cs)
  | '\'' :: cs => (literal cs).map fun (s, cs) => (String.ofList s, cs)
  | cs =>
    match cs.takeWhile isBare with
    | [] => none
    | s => some (String.ofList s, cs.dropWhile isBare)

def keyWith (most : Nat) (cs : List Char) : Option (List String × List Char) :=
  match most with
  | 0 => none
  | most + 1 => do
    let (first, cs) ← name (skipBlanks cs)
    match skipBlanks cs with
    | '.' :: cs =>
      let (rest, cs) ← keyWith most cs
      return (first :: rest, cs)
    | cs => return ([first], cs)

def deepest : Nat := 79

def key (cs : List Char) : Option (List String × List Char) :=
  keyWith deepest cs

end PushKeeper.Toml
