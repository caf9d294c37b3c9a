import PushKeeper.Shell.Tools.Editing.Order
import PushKeeper.Text.Numeral

namespace PushKeeper.Shell.Tools.Editing

inductive Fault
  | unknownCommand (c : Char)
  | missingCommand
  | unterminated (c : Char)
  | openAddress
  | unexpected (c : Char)
  | openBlock
  | moreText
  | oneAddress
  | noAddress
  | zeroAddress
  | manyNots
  | lengths
  | wantsText
  | noLabel
  | noFile
  | unknownOption
  | manyOptions (c : Char)
  | manyNumbers
  | zeroNumber
  | noGroup (n : Nat)
  | form (fault : Form.Fault)

def pointed (cs : String) : String := "\x60" ++ cs ++ "'"

def Fault.message : Fault → String
  | unknownCommand c => "unknown command: " ++ pointed (String.singleton c)
  | missingCommand => "missing command"
  | unterminated c => "unterminated " ++ pointed (String.singleton c) ++ " command"
  | openAddress => "unterminated address regex"
  | unexpected c => "unexpected " ++ pointed (String.singleton c)
  | openBlock => "unmatched " ++ pointed "\x7b"
  | moreText => "extra characters after command"
  | oneAddress => "command only uses one address"
  | noAddress => "comments don't accept any addresses"
  | zeroAddress => "invalid usage of line address 0"
  | manyNots => "multiple " ++ pointed "!" ++ "s"
  | lengths => "strings for " ++ pointed "y" ++ " command are different lengths"
  | wantsText => "expected \\ after " ++ pointed "a" ++ ", " ++ pointed "c" ++ " or " ++ pointed "i"
  | noLabel => "\":\" lacks a label"
  | noFile => "missing filename in r/R/w/W commands"
  | unknownOption => "unknown option to " ++ pointed "s"
  | manyOptions c =>
    "multiple " ++ pointed (String.singleton c) ++ " options to " ++ pointed "s" ++ " command"
  | manyNumbers => "multiple number options to " ++ pointed "s" ++ " command"
  | zeroNumber => "number option to " ++ pointed "s" ++ " command may not be zero"
  | noGroup n =>
    "invalid reference \\" ++ Text.Numeral.render n ++ " on " ++ pointed "s" ++ " command's RHS"
  | form fault => fault.message

structure OrderReader where
  rest : List Char
  extended : Bool
  depth : Nat

abbrev Reading := ExceptT Fault (StateM OrderReader)

namespace Reading

def next? : Reading (Option Char) := do
  let s ← get
  match s.rest with
  | [] => return none
  | c :: rest =>
    set { s with rest }
    return some c

def skip (kind : Char → Bool) : Reading Unit :=
  modify fun s => { s with rest := s.rest.dropWhile kind }

def take (kind : Char → Bool) : Reading (List Char) := do
  let s ← get
  set { s with rest := s.rest.dropWhile kind }
  return s.rest.takeWhile kind

def isGap (c : Char) : Bool := c = ' ' || c = '\t'

def number : Reading Nat := do
  let digits ← take Char.isDigit
  return (String.toNat? (String.ofList digits)).getD 0

def isNext (kind : Char → Bool) : Reading Bool := do
  return (← get).rest.head?.any kind

def whitened (c : Char) : List Char :=
  match c with
  | 'n' => ['\n']
  | 't' => ['\t']
  | 'f' => ['\x0c']
  | 'v' => ['\x0b']
  | 'r' => ['\r']
  | 'a' => ['\x07']
  | c => ['\\', c]

def delimited? (mark : Char) (inForm : Bool) : Nat → List Char → Option (List Char × List Char)
  | 0, _ => none
  | _, [] => none
  | fuel + 1, c :: cs =>
    if c = mark then some ([], cs)
    else
      match c, cs with
      | '\\', d :: rest =>
        let kept : List Char :=
          if d = mark then [d] else if inForm then whitened d else ['\\', d]
        (delimited? mark inForm fuel rest).map fun (text, after) => (kept ++ text, after)
      | '[', cs =>
        match if inForm then Form.setAt? cs else none with
        | some (_, after) =>
          let set := cs.take (cs.length - after.length)
          (delimited? mark inForm fuel after).map fun (text, rest) => ('[' :: set ++ text, rest)
        | none =>
          if inForm then none
          else (delimited? mark inForm fuel cs).map fun (text, after) => ('[' :: text, after)
      | '\n', cs =>
        if inForm then none
        else (delimited? mark inForm fuel cs).map fun (text, after) => ('\n' :: text, after)
      | c, cs => (delimited? mark inForm fuel cs).map fun (text, after) => (c :: text, after)

def delimited (mark : Char) (inForm : Bool) (fault : Fault) : Reading Bytes := do
  let s ← get
  match delimited? mark inForm (s.rest.length + 1) s.rest with
  | some (text, rest) =>
    set { s with rest }
    return text
  | none =>
    set { s with rest := s.rest.dropWhile fun c => !inForm || c ≠ '\n' }
    throw fault

def formOf (anyCase : Bool) (text : Bytes) : Reading (Option Form) := do
  if text.isEmpty then return none
  match Form.ofText ⟨(← get).extended, false⟩ text with
  | .ok f => return some (if anyCase then f.anyCase else f)
  | .error fault => throw (.form fault)

def formAddress (mark : Char) : Reading Address := do
  let text ← delimited mark true .openAddress
  let letters ← take fun c => c = 'I' || c = 'M'
  return .form (← formOf (letters.contains 'I') text)

def address? : Reading (Option Address) := do
  match (← get).rest with
  | '$' :: rest =>
    modify fun s => { s with rest }
    return some .last
  | '/' :: rest =>
    modify fun s => { s with rest }
    some <$> formAddress '/'
  | '\\' :: mark :: rest =>
    modify fun s => { s with rest }
    some <$> formAddress mark
  | c :: _ =>
    if !c.isDigit then return none
    let n ← number
    skip isGap
    if ← isNext (· = '~') then
      let _ ← next?
      return some (.every n (← number))
    else return some (.line n)
  | [] => return none

def limit : Reading Limit := do
  skip isGap
  match (← get).rest with
  | '+' :: rest =>
    modify fun s => { s with rest }
    return .after (← number)
  | '~' :: rest =>
    modify fun s => { s with rest }
    return .multiple (← number)
  | _ =>
    match ← address? with
    | some a => return .address a
    | none => throw (.unexpected ',')

def target : Reading Target := do
  let first ← address?
  skip isGap
  let limit ← if first.isSome && (← isNext (· = ',')) then do
      let _ ← next?
      some <$> limit
    else pure none
  skip isGap
  let opposite ← isNext (· = '!')
  if opposite then
    let _ ← next?
    skip isGap
    if ← isNext (· = '!') then
      let _ ← next?
      throw .manyNots
  return ⟨first, limit, opposite⟩

def finish : Reading Unit := do
  skip isGap
  match (← get).rest with
  | [] => return
  | '\x7d' :: _ => return
  | '#' :: _ => return
  | c :: rest =>
    modify fun s => { s with rest }
    unless c = '\n' || c = ';' do throw .moreText

def lineText : List Char → Bytes × List Char
  | [] => ([], [])
  | '\n' :: rest => ([], rest)
  | '\\' :: c :: rest =>
    let (text, after) := lineText rest
    (c :: text, after)
  | c :: rest =>
    if c = '\\' && rest.isEmpty then ([], [])
    else
      let (text, after) := lineText rest
      (c :: text, after)

def addedText : Reading Bytes := do
  skip isGap
  match (← get).rest with
  | [] => throw .wantsText
  | '\\' :: rest =>
    let after := rest.dropWhile isGap
    modify fun s => { s with rest := if after.head? = some '\n' then after.drop 1 else rest }
    if (← get).rest.isEmpty then throw .wantsText
  | _ => pure ()
  let s ← get
  let (text, rest) := lineText s.rest
  set { s with rest }
  return text ++ ['\n']

def labelText : Reading Bytes := do
  skip isGap
  take fun c => c ≠ '\n' && c ≠ ';'

def fileName : Reading Bytes := do
  skip isGap
  let name ← take (· ≠ '\n')
  if name.isEmpty then throw .noFile
  return name

def partsOf : Bytes → List Part
  | [] => []
  | '&' :: cs => .group 0 :: partsOf cs
  | '\\' :: c :: cs =>
    if c.isDigit then .group (c.toNat - 48) :: partsOf cs
    else if ['U', 'L', 'u', 'l', 'E'].contains c then .shift c :: partsOf cs
    else .text [((whitened c).head?.filter (· ≠ '\\')).getD c] :: partsOf cs
  | c :: cs => .text [c] :: partsOf cs

def exchangeOptions : Nat → Exchange → Option Nat → Bool → Reading (Exchange × Bool)
  | 0, e, _, anyCase => return (e, anyCase)
  | fuel + 1, e, count, anyCase => do
    match ← next? with
    | none => return (e, anyCase)
    | some 'g' =>
      if e.all then throw (.manyOptions 'g')
      exchangeOptions fuel { e with all := true } count anyCase
    | some 'p' =>
      if e.prints then throw (.manyOptions 'p')
      exchangeOptions fuel { e with prints := true } count anyCase
    | some 'w' => do
      let file ← fileName
      return ({ e with file := some file }, anyCase)
    | some c =>
      if c = 'i' || c = 'I' then exchangeOptions fuel e count true
      else if c = 'm' || c = 'M' || isGap c then exchangeOptions fuel e count anyCase
      else if c.isDigit then
        let more ← take Char.isDigit
        let n := (String.toNat? (String.ofList (c :: more))).getD 0
        if count.isSome then throw .manyNumbers
        if n = 0 then throw .zeroNumber
        exchangeOptions fuel { e with number := n } (some n) anyCase
      else if c = '\n' || c = ';' then return (e, anyCase)
      else if c = '\x7d' || c = '#' then
        modify fun s => { s with rest := c :: s.rest }
        return (e, anyCase)
      else throw .unknownOption

def exchange : Reading Action := do
  let some mark ← next? | throw (.unterminated 's')
  let text ← delimited mark true (.unterminated 's')
  let new ← delimited mark false (.unterminated 's')
  let parts := partsOf new
  let fuel := (← get).rest.length + 1
  let (e, anyCase) ← exchangeOptions fuel ⟨none, parts, 1, false, false, none⟩ none false
  let form ← formOf anyCase text
  let count := (form.map Form.groupCount).getD 9
  for part in parts do
    if let .group n := part then
      if count < n then throw (.noGroup n)
  return .exchange { e with form }

def unprotected : Bytes → Bytes
  | [] => []
  | '\\' :: c :: cs =>
    (if c = 'n' then ['\n'] else if c = '\\' then ['\\'] else ['\\', c]) ++ unprotected cs
  | c :: cs => c :: unprotected cs

def translate : Reading Action := do
  let some mark ← next? | throw (.unterminated 'y')
  let old := unprotected (← delimited mark false (.unterminated 'y'))
  let new := unprotected (← delimited mark false (.unterminated 'y'))
  if old.length ≠ new.length then throw .lengths
  finish
  return .translate (old.zip new)

def plainAction? (c : Char) : Option Action :=
  match c with
  | 'p' => some .print
  | 'P' => some .printFirst
  | 'd' => some .delete
  | 'D' => some .deleteFirst
  | 'n' => some .next
  | 'N' => some .join
  | 'h' => some (.hold false)
  | 'H' => some (.hold true)
  | 'g' => some (.recall false)
  | 'G' => some (.recall true)
  | 'x' => some .swap
  | 'z' => some .clear
  | 'l' => some .show
  | '=' => some .number
  | _ => none

def action (t : Target) : Reading Action := do
  let some c ← next? | throw .missingCommand
  if t.first.isSome then
    match t.first, t.limit with
    | some (.line 0), some (.address (.form _)) => pure ()
    | some (.line 0), _ => throw .zeroAddress
    | _, _ => pure ()
  if let some a := plainAction? c then
    finish
    return a
  let only : Reading Unit := if t.limit.isSome then throw .oneAddress else pure ()
  match c with
  | '\x7b' =>
    modify fun s => { s with depth := s.depth + 1 }
    return .opens
  | '\x7d' =>
    if (← get).depth = 0 then throw (.unexpected '\x7d')
    modify fun s => { s with depth := s.depth - 1 }
    finish
    return .closes
  | '#' =>
    if t.first.isSome then throw .noAddress
    skip (· ≠ '\n')
    return .none
  | ':' =>
    let name ← labelText
    if name.isEmpty then throw .noLabel
    return .label name
  | 's' => exchange
  | 'y' => translate
  | 'q' =>
    only
    skip isGap
    let status ← number
    finish
    return .quit status false
  | 'Q' =>
    only
    skip isGap
    let status ← number
    finish
    return .quit status true
  | 'a' => return .append (← addedText)
  | 'i' => return .insert (← addedText)
  | 'c' => return .change (← addedText)
  | 'b' => return .branch (← labelText)
  | 't' => return .branchIf true (← labelText)
  | 'T' => return .branchIf false (← labelText)
  | 'r' => return .include (← fileName)
  | 'w' => return .store (← fileName)
  | '\n' => throw .missingCommand
  | ';' => throw .missingCommand
  | c => throw (.unknownCommand c)

def orders : Nat → Nat → Reading (List Order)
  | 0, _ => return []
  | fuel + 1, id => do
    skip fun c => c.isWhitespace || c = ';'
    if (← get).rest.isEmpty then
      if (← get).depth ≠ 0 then throw .openBlock
      return []
    let t ← target
    let a ← action t
    return ⟨id, t, a⟩ :: (← orders fuel (id + 1))

end Reading

structure Misreading where
  read : Nat
  fault : Fault

def ordersOf (extended : Bool) (text : Bytes) : Except Misreading (List Order) :=
  match (Reading.orders (text.length + 1) 0).run ⟨text, extended, 0⟩ with
  | (.ok orders, _) => .ok orders
  | (.error fault, s) => .error ⟨text.length - s.rest.length, fault⟩

end PushKeeper.Shell.Tools.Editing
