import PushKeeper.Shell.Arithmetic
import PushKeeper.Shell.Tools.Basic
import PushKeeper.Shell.Tools.Form

namespace PushKeeper.Shell.Tools

namespace Calculation

inductive Fault
  | missingOperand
  | missingAfter (word : Bytes)
  | unexpected (word : Bytes)
  | unexpectedBracket
  | wantsBracketAfter (word : Bytes)
  | wantsBracketInstead (word : Bytes)
  | noNumber
  | divisionByZero
  | form (fault : Form.Fault)

def Fault.message : Fault → Bytes
  | missingOperand => bytesOf "missing operand"
  | missingAfter word => bytesOf "syntax error: missing argument after " ++ cited word
  | unexpected word => bytesOf "syntax error: unexpected argument " ++ cited word
  | unexpectedBracket => bytesOf "syntax error: unexpected ')'"
  | wantsBracketAfter word => bytesOf "syntax error: expecting ')' after " ++ cited word
  | wantsBracketInstead word => bytesOf "syntax error: expecting ')' instead of " ++ cited word
  | noNumber => bytesOf "non-integer argument"
  | divisionByZero => bytesOf "division by zero"
  | form fault => bytesOf fault.message

def number? (text : Bytes) : Option Int :=
  let (negative, digits) : Bool × Bytes := match text with
    | '-' :: digits => (true, digits)
    | digits => (false, digits)
  if digits.isEmpty || !digits.all Char.isDigit then none
  else
    let n : Int := ((String.toNat? (String.ofList digits)).getD 0 : Nat)
    some (if negative then -n else n)

def render (n : Int) : Bytes := Arithmetic.render n

def isNothing (text : Bytes) : Bool :=
  let digits := if text.head? = some '-' then text.drop 1 else text
  text.isEmpty || (!digits.isEmpty && digits.all (· = '0'))

def truth (b : Bool) : Bytes := if b then ['1'] else ['0']

structure Rest where
  last : Bytes
  words : List Bytes

abbrev Level := (matters : Bool) → Rest → Except Fault (Bytes × Rest)

def operator? (operators : List String) (r : Rest) : Option (String × Rest) :=
  match r.words with
  | word :: words => if operators.contains (textOf word) then some (textOf word, ⟨word, words⟩) else none
  | [] => none

def chain (operators : List String) (matters : Bytes → Bool → Bool) (inner : Level)
    (apply : String → Bool → Bytes → Bytes → Except Fault Bytes) :
    Nat → Bool → Bytes → Rest → Except Fault (Bytes × Rest)
  | 0, _, left, r => .ok (left, r)
  | fuel + 1, wanted, left, r =>
    match operator? operators r with
    | none => .ok (left, r)
    | some (operator, r) => do
      let (right, r) ← inner (matters left wanted) r
      let value ← apply operator wanted left right
      chain operators matters inner apply fuel wanted value r

def level (operators : List String) (matters : Bytes → Bool → Bool) (inner : Level)
    (apply : String → Bool → Bytes → Bytes → Except Fault Bytes) : Level := fun wanted r => do
  let (left, r) ← inner wanted r
  chain operators matters inner apply (r.words.length + 1) wanted left r

def matching (text pattern : Bytes) : Except Fault Bytes := do
  let f ← (Form.ofText ⟨false, false⟩ pattern).mapError Fault.form
  let hasGroup := 0 < f.groupCount
  match Form.furthest (f.ends (.atStart text)) with
  | none => return if hasGroup then [] else ['0']
  | some spot =>
    if hasGroup then return (spot.groups.lookup 1).getD [] else return render spot.place

def onNumbers (a b : Bytes) (operation : Int → Int → Except Fault Int) : Except Fault Bytes :=
  match number? a, number? b with
  | some m, some n => render <$> operation m n
  | _, _ => .error .noNumber

def compare (operator : String) (a b : Bytes) : Bool :=
  let (isLess, isEqual) : Bool × Bool := match number? a, number? b with
    | some m, some n => (m < n, m = n)
    | _, _ => (a < b, a = b)
  match operator with
  | "<" => isLess
  | "<=" => isLess || isEqual
  | "=" => isEqual
  | "==" => isEqual
  | "!=" => !isEqual
  | ">=" => !isLess
  | _ => !isLess && !isEqual

def nextWord (r : Rest) : Except Fault (Bytes × Rest) :=
  match r.words with
  | [] => .error (.missingAfter r.last)
  | word :: words => .ok (word, ⟨word, words⟩)

def part (text place length : Bytes) : Bytes :=
  match number? place, number? length with
  | some p, some n => if p ≤ 0 || n ≤ 0 then [] else (text.drop (p.toNat - 1)).take n.toNat
  | _, _ => []

def indexOf (text set : Bytes) : Nat :=
  match text.findIdx? set.contains with
  | some i => i + 1
  | none => 0

def whereWanted (wanted : Bool) (value : Except Fault Bytes) : Except Fault Bytes :=
  if wanted then value else .ok []

def value : Nat → Level
  | 0, _, r => .error (.missingAfter r.last)
  | fuel + 1, wanted, r =>
    let same (_ : Bytes) (wanted : Bool) : Bool := wanted
    let simple : Level := fun wanted r => do
      let (word, after) ← nextWord r
      match textOf word with
      | "+" => nextWord after
      | ")" => throw .unexpectedBracket
      | "(" => do
        let (v, r) ← value fuel wanted after
        match r.words with
        | [] => throw (.wantsBracketAfter r.last)
        | [')'] :: words => return (v, ⟨[')'], words⟩)
        | word :: _ => throw (.wantsBracketInstead word)
      | _ => return (word, after)
    let called : Level := primary fuel simple
    let matchings := level [":"] same called fun _ wanted a b => whereWanted wanted (matching a b)
    let products := level ["*", "/", "%"] same matchings fun operator wanted a b =>
      whereWanted wanted <| onNumbers a b fun m n =>
        if operator = "*" then .ok (m * n)
        else if n = 0 then .error .divisionByZero
        else .ok (if operator = "/" then m.tdiv n else m.tmod n)
    let sums := level ["+", "-"] same products fun operator wanted a b =>
      whereWanted wanted <| onNumbers a b fun m n => .ok (if operator = "+" then m + n else m - n)
    let comparisons := level ["<", "<=", "=", "==", "!=", ">=", ">"] same sums
      fun operator wanted a b => whereWanted wanted (.ok (truth (compare operator a b)))
    let conjunctions := level ["&"] (fun a wanted => wanted && !isNothing a) comparisons
      fun _ _ a b => .ok (if isNothing a || isNothing b then ['0'] else a)
    let disjunctions := level ["|"] (fun a wanted => wanted && isNothing a) conjunctions
      fun _ _ a b => .ok (if !isNothing a then a else if isNothing b then ['0'] else b)
    disjunctions wanted r
where
  primary : Nat → Level → Level
    | 0, simple, wanted, r => simple wanted r
    | fuel + 1, simple, wanted, r =>
      let again := primary fuel simple wanted
      match r.words with
      | [] => simple wanted r
      | word :: words =>
        let after : Rest := ⟨word, words⟩
        match textOf word with
        | "length" => do
          let (text, r) ← again after
          return (render text.length, r)
        | "match" => do
          let (text, r) ← again after
          let (pattern, r) ← again r
          return (← whereWanted wanted (matching text pattern), r)
        | "index" => do
          let (text, r) ← again after
          let (set, r) ← again r
          return (render (indexOf text set), r)
        | "substr" => do
          let (text, r) ← again after
          let (place, r) ← again r
          let (length, r) ← again r
          return (part text place length, r)
        | _ => simple wanted r

def ofWords (words : List Bytes) : Except Fault Bytes := do
  if words.isEmpty then throw .missingOperand
  let (v, r) ← value (2 * words.length + 1) true ⟨[], words⟩
  match r.words with
  | [] => return v
  | word :: _ => throw (.unexpected word)

end Calculation

def calculate : Tool := fun _ name arguments => do
  let words := if arguments.head? = some ['-', '-'] then arguments.tail else arguments
  match Calculation.ofWords words with
  | .error .missingOperand => refuse name 2 (bytesOf "missing operand")
  | .error fault =>
    report name fault.message
    return 2
  | .ok value =>
    giveLines [value]
    return statusOf (!Calculation.isNothing value)

end PushKeeper.Shell.Tools
