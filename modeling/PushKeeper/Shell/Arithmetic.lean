import PushKeeper.Shell.Bytes

namespace PushKeeper.Shell.Arithmetic

inductive Fault
  | noValue
  | noBracket
  | noColon
  | moreText
  | divisionByZero
  | noNumber (text : Bytes)
  deriving DecidableEq

def Fault.message (sum : Bytes) (fault : Fault) : Bytes :=
  let about (why : String) : Bytes :=
    bytesOf ("arithmetic expression: " ++ why ++ ": \"") ++ sum ++ ['"']
  match fault with
  | .noValue => about "expecting primary"
  | .noBracket => about "expecting ')'"
  | .noColon => about "expecting ':'"
  | .moreText => about "expecting EOF"
  | .divisionByZero => about "division by zero"
  | .noNumber text => bytesOf "Illegal number: " ++ text

def truth (b : Bool) : Int := if b then 1 else 0

def wrap (n : Int) : Int := n.bmod (Nat.pow 2 64)

def onBits (f : Int64 → Int64 → Int64) (a b : Int) : Int :=
  (f (.ofInt a) (.ofInt b)).toInt

structure Binary where
  symbol : String
  apply : Int → Int → Option Int

def total (symbol : String) (apply : Int → Int → Int) : Binary :=
  ⟨symbol, fun a b => some (wrap (apply a b))⟩

def question (symbol : String) (holds : Int → Int → Bool) : Binary :=
  ⟨symbol, fun a b => some (truth (holds a b))⟩

def division (symbol : String) (apply : Int → Int → Int) : Binary :=
  ⟨symbol, fun a b => if b = 0 then none else some (wrap (apply a b))⟩

def levels : List (List Binary) :=
  [[total "|" (onBits (· ||| ·))],
    [total "^" (onBits (· ^^^ ·))],
    [total "&" (onBits (· &&& ·))],
    [question "==" fun a b => a = b, question "!=" fun a b => a ≠ b],
    [question "<=" fun a b => a ≤ b, question ">=" fun a b => b ≤ a,
      question "<" fun a b => a < b, question ">" fun a b => b < a],
    [total "<<" (onBits (· <<< ·)), total ">>" (onBits (· >>> ·))],
    [total "+" (· + ·), total "-" (· - ·)],
    [total "*" (· * ·), division "/" Int.tdiv, division "%" Int.tmod]]

def assigning : List Binary :=
  levels.flatten.filter fun op =>
    ["|", "^", "&", "<<", ">>", "+", "-", "*", "/", "%"].contains op.symbol

def symbols : List String :=
  ["<<=", ">>=", "||", "&&", "==", "!=", "<=", ">=", "<<", ">>", "|=", "^=", "&=", "+=", "-=", "*=",
    "/=", "%=", "|", "^", "&", "<", ">", "+", "-", "*", "/", "%", "=", "!", "~", "?", ":", "(", ")"]

def symbolAt? (cs : List Char) : Option String :=
  symbols.find? fun s => s.toList.isPrefixOf cs

def isGap (c : Char) : Bool := c == ' ' || (9 ≤ c.toNat && c.toNat ≤ 13)

def skip (cs : List Char) : List Char := cs.dropWhile isGap

def digit? (c : Char) : Option Nat :=
  if c.isDigit then some (c.toNat - 48)
  else if 'a' ≤ c ∧ c ≤ 'f' then some (c.toNat - 87)
  else if 'A' ≤ c ∧ c ≤ 'F' then some (c.toNat - 55)
  else none

def digitsFrom (base value : Nat) : List Char → Nat × List Char
  | [] => (value, [])
  | c :: cs =>
    match (digit? c).filter (· < base) with
    | some d => digitsFrom base (base * value + d) cs
    | none => (value, c :: cs)

def base? (a b : Char) : Option Nat :=
  if a ≠ '0' then none
  else if b = 'x' || b = 'X' then some 16
  else if b = 'b' || b = 'B' then some 2
  else none

def numeral? (cs : List Char) : Option (Nat × List Char) :=
  let plain : Option (Nat × List Char) :=
    match cs with
    | '0' :: _ => some (digitsFrom 8 0 cs)
    | c :: _ => if c.isDigit then some (digitsFrom 10 0 cs) else none
    | [] => none
  match cs with
  | a :: b :: c :: rest =>
    match (base? a b).filter fun base => ((digit? c).filter (· < base)).isSome with
    | some base => some (digitsFrom base 0 (c :: rest))
    | none => plain
  | _ => plain

def decimal? (cs : List Char) : Option (Nat × List Char) :=
  match cs with
  | c :: _ => if c.isDigit then some (digitsFrom 10 0 cs) else none
  | [] => none

def largest : Nat := Nat.pow 2 63 - 1

def signed? (read : List Char → Option (Nat × List Char)) (cs : List Char) :
    Option (Int × List Char) :=
  match skip cs with
  | '-' :: cs => (read cs).map fun (n, cs) => (-(n : Int), cs)
  | '+' :: cs => (read cs).map fun (n, cs) => ((n : Int), cs)
  | cs => (read cs).map fun (n, cs) => ((n : Int), cs)

def inRange (n : Int) : Bool := -(largest : Int) - 1 ≤ n && n ≤ largest

def clamp (n : Int) : Int := max (-(largest : Int) - 1) (min n largest)

def wholly? (read : List Char → Option (Nat × List Char)) (cs : List Char) : Option Int :=
  match signed? read cs with
  | some (n, rest) => if (skip rest).isEmpty && inRange n then some n else none
  | none => none

def value? (cs : List Char) : Option Int := wholly? decimal? cs

structure State where
  rest : List Char
  assigned : List (Bytes × Int)

abbrev Working := ExceptT Fault (StateM State)

inductive Level
  | assignment
  | choice
  | anyOf
  | allOf
  | binary (operators : List (List Binary))

def upcoming : Working (Option String × List Char) := do
  let cs := skip (← get).rest
  match symbolAt? cs with
  | some s => return (some s, cs.drop s.length)
  | none => return (none, cs)

def goOn (cs : List Char) : Working Unit :=
  modify fun s => { s with rest := cs }

def nextIs (symbol : String) : Working Bool := do
  match ← upcoming with
  | (some s, cs) =>
    if s = symbol then
      goOn cs
      return true
    else return false
  | _ => return false

def valueOf (look : Bytes → Bytes) (name : Bytes) : Working Int := do
  match (← get).assigned.lookup name with
  | some n => return n
  | none =>
    let text := look name
    if (skip text).isEmpty then return 0
    match wholly? numeral? text with
    | some n => return n
    | none => throw (.noNumber text)

def assignment? (cs : List Char) : Option (Bytes × Option Binary × List Char) :=
  match skip cs with
  | [] => none
  | c :: cs =>
    if isNameStart c then
      let name := c :: cs.takeWhile isNameChar
      let rest := skip (cs.dropWhile isNameChar)
      match symbolAt? rest with
      | none => none
      | some s =>
        if s = "=" then some (name, none, rest.drop 1)
        else (assigning.find? fun op => op.symbol ++ "=" = s).map fun op =>
          (name, some op, rest.drop s.length)
    else none

def Binary.on (op : Binary) (a b : Int) : Working Int :=
  match op.apply a b with
  | some n => return n
  | none => throw .divisionByZero

def factor (look : Bytes → Bytes) (work : Level → Bool → Working Int) (idle : Bool) :
    Nat → Working Int
  | 0 => throw .noValue
  | fuel + 1 => do
    match ← upcoming with
    | (some "-", cs) =>
      goOn cs
      return wrap (-(← factor look work idle fuel))
    | (some "+", cs) =>
      goOn cs
      factor look work idle fuel
    | (some "~", cs) =>
      goOn cs
      return wrap (-(← factor look work idle fuel) - 1)
    | (some "!", cs) =>
      goOn cs
      return truth ((← factor look work idle fuel) = 0)
    | (some "(", cs) =>
      goOn cs
      let n ← work .assignment idle
      if ← nextIs ")" then return n else throw .noBracket
    | (some _, _) => throw .noValue
    | (none, c :: cs) =>
      if isNameStart c then
        goOn (cs.dropWhile isNameChar)
        if idle then return 0 else valueOf look (c :: cs.takeWhile isNameChar)
      else
        match numeral? (c :: cs) with
        | some (n, rest) =>
          goOn rest
          return clamp n
        | none => throw .noValue
    | (none, []) => throw .noValue

def moreOf (work : Level → Bool → Working Int) (idle : Bool) (level : List Binary)
    (tighter : List (List Binary)) (a : Int) : Nat → Working Int
  | 0 => return a
  | fuel + 1 => do
    let (symbol, cs) ← upcoming
    match level.find? fun op => symbol = some op.symbol with
    | none => return a
    | some op =>
      goOn cs
      let b ← work (.binary tighter) idle
      let n ← if idle then pure b else op.on a b
      moreOf work idle level tighter n fuel

/-- Works out a level of a sum with what works out the levels within it. What is idle is only
read. -/
def workLevel (look : Bytes → Bytes) (work : Level → Bool → Working Int) :
    Level → Bool → Working Int
  | .assignment, idle => do
    match assignment? (← get).rest with
    | none => work .choice idle
    | some (name, op, rest) =>
      goOn rest
      let b ← work .assignment idle
      if idle then return b
      let n ← match op with
        | none => pure b
        | some op => op.on (← valueOf look name) b
      modify fun s => { s with assigned := (name, n) :: s.assigned }
      return n
  | .choice, idle => do
    let a ← work .anyOf idle
    if ← nextIs "?" then
      let b ← work .assignment (idle || a = 0)
      if ← nextIs ":" then
        let c ← work .choice (idle || a ≠ 0)
        return if a ≠ 0 then b else c
      else throw .noColon
    else return a
  | .anyOf, idle => do
    let a ← work .allOf idle
    if ← nextIs "||" then
      let b ← work .anyOf (idle || a ≠ 0)
      return truth (a ≠ 0 || b ≠ 0)
    else return a
  | .allOf, idle => do
    let a ← work (.binary levels) idle
    if ← nextIs "&&" then
      let b ← work .allOf (idle || a = 0)
      return truth (a ≠ 0 && b ≠ 0)
    else return a
  | .binary [], idle => do factor look work idle ((← get).rest.length + 1)
  | .binary (level :: tighter), idle => do
    let a ← work (.binary tighter) idle
    moreOf work idle level tighter a ((← get).rest.length + 1)

def workWith (look : Bytes → Bytes) : Nat → Level → Bool → Working Int
  | 0 => fun _ _ => throw .noValue
  | depth + 1 => workLevel look (workWith look depth)

def evaluate (look : Bytes → Bytes) (cs : Bytes) : Except Fault (Int × List (Bytes × Int)) :=
  let work : Working Int := do
    let n ← workWith look (16 * cs.length + 32) .assignment false
    if (skip (← get).rest).isEmpty then return n else throw .moreText
  match work.run ⟨cs, []⟩ with
  | (.ok n, s) => .ok (n, s.assigned.reverse)
  | (.error fault, _) => .error fault

def render (n : Int) : Bytes :=
  if n < 0 then '-' :: Text.Numeral.digits n.natAbs else Text.Numeral.digits n.natAbs

end PushKeeper.Shell.Arithmetic
