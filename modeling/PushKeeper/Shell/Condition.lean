import PushKeeper.Shell.Arithmetic
import PushKeeper.Shell.Session

namespace PushKeeper.Shell.Condition

inductive Fault
  | unexpectedOperator (word : Bytes)
  | noArgument (operator : Bytes)
  | noBracket
  | noNumber (word : Bytes)
  deriving DecidableEq

def Fault.message : Fault → Bytes
  | .unexpectedOperator [] => bytesOf "unexpected operator"
  | .unexpectedOperator word => word ++ bytesOf ": unexpected operator"
  | .noArgument operator => operator ++ bytesOf ": argument expected"
  | .noBracket => bytesOf "closing paren expected"
  | .noNumber word => bytesOf "Illegal number: " ++ word

def questions : List String :=
  ["-r", "-w", "-x", "-e", "-f", "-d", "-c", "-b", "-p", "-u", "-g", "-k", "-s", "-t", "-z", "-n",
    "-h", "-O", "-G", "-L", "-S"]

def comparisons : List String :=
  ["=", "!=", "<", ">", "-eq", "-ne", "-ge", "-gt", "-le", "-lt", "-nt", "-ot", "-ef"]

def isComparison (word : Bytes) : Bool := comparisons.contains (textOf word)

inductive Token
  | ends
  | operand
  | asks
  | compares
  | negates
  | either
  | both
  | opens
  | closes
  deriving DecidableEq

def token : List Bytes → Token
  | [] => .ends
  | word :: rest =>
    let text := textOf word
    if questions.contains text then
      match rest with
      | [] => .operand
      | [_] => .asks
      | next :: _ => if isComparison next then .operand else .asks
    else if comparisons.contains text then .compares
    else
      match text with
      | "!" => .negates
      | "-o" => .either
      | "-a" => .both
      | "(" => if rest.isEmpty then .operand else .opens
      | ")" => .closes
      | _ => .operand

inductive Kind
  | device
  | directory
  | file (id : Nat) (isEmpty : Bool)
  deriving DecidableEq

def kindOf? (tree : Files.Tree) (path : Bytes) : Option Kind :=
  match Session.descriptorAt? (textOf path), tree.locate (textOf path) with
  | some _, _ => some .device
  | none, .ok (.found place (.file id bytes)) =>
    if (Session.devices.lookup place).isSome then some .device
    else some (.file id (bytes.size = 0))
  | none, .ok (.found _ .directory) => some .directory
  | none, _ => none

def ask (tree : Files.Tree) (question : String) (word : Bytes) : Except Fault Bool :=
  let kind := kindOf? tree word
  match question with
  | "-n" => .ok !word.isEmpty
  | "-z" => .ok word.isEmpty
  | "-f" => .ok <| match kind with
    | some (.file ..) => true
    | _ => false
  | "-d" => .ok (kind = some .directory)
  | "-c" => .ok (kind = some .device)
  | "-e" => .ok kind.isSome
  | "-r" => .ok kind.isSome
  | "-w" => .ok kind.isSome
  | "-O" => .ok kind.isSome
  | "-G" => .ok kind.isSome
  | "-x" => .ok <| match kind with
    | some (.file id _) => tree.runnable.contains id
    | some .directory => true
    | _ => false
  | "-s" => .ok <| match kind with
    | some (.file _ isEmpty) => !isEmpty
    | some .directory => true
    | _ => false
  | "-t" =>
    match Arithmetic.value? word with
    | some _ => .ok false
    | none => .error (.noNumber word)
  | _ => .ok false

def isNewer (tree : Files.Tree) (a b : Bytes) : Bool :=
  match kindOf? tree a, kindOf? tree b with
  | some (.file m _), some (.file n _) => n < m
  | _, _ => false

def isSame (tree : Files.Tree) (a b : Bytes) : Bool :=
  match tree.locate (textOf a), tree.locate (textOf b) with
  | .ok (.found p _), .ok (.found q _) => p = q
  | _, _ => false

def compare (tree : Files.Tree) (a : Bytes) (comparison : String) (b : Bytes) : Except Fault Bool :=
  let number (word : Bytes) : Except Fault Int :=
    match Arithmetic.value? word with
    | some n => .ok n
    | none => .error (.noNumber word)
  let numbers (holds : Int → Int → Bool) : Except Fault Bool := do
    return holds (← number a) (← number b)
  match comparison with
  | "=" => .ok (a == b)
  | "!=" => .ok (a != b)
  | "<" => .ok (a < b)
  | ">" => .ok (b < a)
  | "-eq" => numbers fun a b => a = b
  | "-ne" => numbers fun a b => a ≠ b
  | "-lt" => numbers fun a b => a < b
  | "-le" => numbers fun a b => a ≤ b
  | "-gt" => numbers fun a b => b < a
  | "-ge" => numbers fun a b => b ≤ a
  | "-nt" => .ok (isNewer tree a b)
  | "-ot" => .ok (isNewer tree b a)
  | "-ef" => .ok (isSame tree a b)
  | _ => .ok false

mutual

def anyOf (fuel : Nat) (tree : Files.Tree) (t : Token) (words : List Bytes) :
    Except Fault (Bool × List Bytes) :=
  match fuel with
  | 0 => .error .noBracket
  | fuel + 1 => do
    let (first, words) ← allOf fuel tree t words
    if token words.tail = .either then
      let rest := words.drop 2
      let (second, words) ← anyOf fuel tree (token rest) rest
      return (first || second, words)
    else return (first, words)

def allOf (fuel : Nat) (tree : Files.Tree) (t : Token) (words : List Bytes) :
    Except Fault (Bool × List Bytes) :=
  match fuel with
  | 0 => .error .noBracket
  | fuel + 1 => do
    let (first, words) ← one fuel tree t words
    if token words.tail = .both then
      let rest := words.drop 2
      let (second, words) ← allOf fuel tree (token rest) rest
      return (first && second, words)
    else return (first, words)

def one (fuel : Nat) (tree : Files.Tree) (t : Token) (words : List Bytes) :
    Except Fault (Bool × List Bytes) :=
  match fuel with
  | 0 => .error .noBracket
  | fuel + 1 =>
    match t, words with
    | .ends, words => .ok (false, words)
    | .negates, word :: rest => do
      let (b, words) ← one fuel tree (token rest) (if rest.isEmpty then [word] else rest)
      return (!b, words)
    | .opens, _ :: rest =>
      if token rest = .closes then .ok (false, rest)
      else do
        let (b, words) ← anyOf fuel tree (token rest) rest
        if token words.tail = .closes then return (b, words.tail) else .error .noBracket
    | .asks, [question] => .error (.noArgument question)
    | .asks, question :: word :: rest => do
      return (← ask tree (textOf question) word, word :: rest)
    | _, words =>
      match words with
      | [] => .ok (false, [])
      | [a] => .ok (!a.isEmpty, [a])
      | [a, op] => if isComparison op then .error (.noArgument op) else .ok (!a.isEmpty, [a, op])
      | a :: op :: b :: rest =>
        if isComparison op then do return (← compare tree a (textOf op) b, b :: rest)
        else .ok (!a.isEmpty, words)

end

def answer (tree : Files.Tree) (t : Token) (words : List Bytes) : Except Fault Bool := do
  match ← anyOf (4 * words.length + 4) tree t words with
  | (_, last :: _ :: _) => .error (.unexpectedOperator last)
  | (b, _) => return b

def answerInside (tree : Files.Tree) (words : List Bytes) : Except Fault Bool :=
  let inner := words.tail.dropLast
  answer tree (token inner) inner

def isBracketed (words : List Bytes) : Bool :=
  words.head? = some ['('] && words.getLast? = some [')']

/-- The answer to a condition of three words, which are read by their number, or its opposite. An
exclamation mark in front asks for the opposite, even where that has been asked for already. -/
def ofThree (tree : Files.Tree) (opposite : Bool) (words : List Bytes) : Except Fault Bool :=
  let result (opposite : Bool) (b : Except Fault Bool) : Except Fault Bool := b.map (· != opposite)
  if (words.drop 1).head?.map isComparison = some true then
    result opposite (answer tree .operand words)
  else if isBracketed words then result opposite (answerInside tree words)
  else if words.head? = some ['!'] then
    result true (answer tree (token words.tail) words.tail)
  else result opposite (answer tree (token words) words)

def holds (tree : Files.Tree) (words : List Bytes) : Except Fault Bool :=
  if words.isEmpty then .ok false
  else if words.length = 3 then ofThree tree false words
  else if words.length = 4 && isBracketed words then answerInside tree words
  else if words.length = 4 && words.head? = some ['!'] then ofThree tree true words.tail
  else answer tree (token words) words

end PushKeeper.Shell.Condition
