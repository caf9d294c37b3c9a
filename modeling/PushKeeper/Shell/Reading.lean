import PushKeeper.Shell.Syntax

namespace PushKeeper.Shell

inductive SyntaxFault
  | openQuote
  | openBackquote
  | openBrace
  | openSum
  | badLoopVariable
  | badFunctionName
  | unexpected (found : String) (wanted : Option String)
  deriving DecidableEq

def SyntaxFault.message : SyntaxFault → String
  | .openQuote => "Unterminated quoted string"
  | .openBackquote => "EOF in backquote substitution"
  | .openBrace => "Missing '\x7d'"
  | .openSum => "Missing '))'"
  | .badLoopVariable => "Bad for loop variable"
  | .badFunctionName => "Bad function name"
  | .unexpected found none => found ++ " unexpected"
  | .unexpected found (some wanted) => found ++ " unexpected (expecting " ++ wanted ++ ")"

inductive Arrow
  | file (kind : OpenKind)
  | copy
  | document (dropTabs : Bool)
  deriving DecidableEq

inductive Token
  | finish
  | newline
  | semicolon
  | ampersand
  | both
  | either
  | bar
  | openBracket
  | closeBracket
  | endArm
  | redirect (fd : Nat) (arrow : Arrow)
  | word (w : Word)
  | keyword (name : String)

def quote (s : String) : String := "\"" ++ s ++ "\""

def Token.called : Token → String
  | .finish => "end of file"
  | .newline => "newline"
  | .semicolon => quote ";"
  | .ampersand => quote "&"
  | .both => quote "&&"
  | .either => quote "||"
  | .bar => quote "|"
  | .openBracket => quote "("
  | .closeBracket => quote ")"
  | .endArm => quote ";;"
  | .redirect .. => "redirection"
  | .word _ => "word"
  | .keyword name => quote name

def keywords : List String :=
  ["!", "case", "do", "done", "elif", "else", "esac", "fi", "for", "if", "in", "then", "until",
    "while", "\x7b", "\x7d"]

def Token.endsList : Token → Bool
  | .finish => true
  | .closeBracket => true
  | .endArm => true
  | .keyword name =>
    ["do", "done", "elif", "else", "esac", "fi", "then", "\x7d"].contains name
  | _ => false

structure EndMark where
  line : Bytes
  dropTabs : Bool
  deriving DecidableEq

def EndMark.never : EndMark := ⟨['\n'], false⟩

structure Pending where
  number : Nat
  mark : EndMark
  verbatim : Bool

structure Exchange where
  name : Bytes
  after : Nat
  goesOn : Bool

structure Reader where
  rest : List Char
  line : Nat
  unused : Option Token
  pending : List Pending
  documents : List (Nat × Word)
  fresh : Nat
  aliases : List (Bytes × Bytes)
  exchanges : List Exchange
  goesOn : Bool

abbrev Reading := ExceptT SyntaxFault (StateM Reader)

inductive Ending
  | word
  | quote
  | brace
  | sum
  | bracket
  | document
  deriving DecidableEq

structure Place where
  ending : Ending
  double : Bool
  quoted : Bool
  nested : Bool
  document : Option EndMark
  verbatim : Bool
  deriving DecidableEq

inductive Extent
  | line
  | some
  | any
  deriving DecidableEq

structure Look where
  lines : Bool
  keywords : Bool
  aliases : Bool
  deriving DecidableEq

namespace Look

def plain : Look := ⟨false, false, false⟩

def command : Look := ⟨false, true, true⟩

def anyLine : Look := ⟨true, true, true⟩

def first : Look := ⟨false, false, true⟩

def arm : Look := ⟨true, true, false⟩

end Look

inductive Goal
  | pieces (place : Place)
  | list (extent : Extent)
  | pipeline (look : Look)
  | andOr
  | moreAndOr (first : Command)
  | command (look : Look)

def Goal.Result : Goal → Type
  | pieces _ => List Piece
  | list _ => List Command
  | pipeline _ => Command
  | andOr => Command
  | moreAndOr _ => Command
  | command _ => Command

abbrev Readers := (goal : Goal) → Reading goal.Result

def dropJoints : List Char → Nat × List Char
  | '\\' :: '\n' :: cs => let (n, cs) := dropJoints cs; (n + 1, cs)
  | cs => (0, cs)

def upcoming : Reading (List Char) := do
  let s ← get
  let (n, cs) := dropJoints s.rest
  if n ≠ 0 then set { s with rest := cs, line := s.line + n }
  return cs

def goOn (cs : List Char) : Reading Unit :=
  modify fun s => { s with rest := cs }

def passOver (used rest : List Char) : Reading Unit :=
  modify fun s => { s with rest, line := s.line + used.count '\n' }

def nextIs (c : Char) : Reading Bool := do
  match ← upcoming with
  | d :: cs =>
    if c = d then
      goOn cs
      return true
    else return false
  | [] => return false

def isBlank (c : Char) : Bool := c == ' ' || c == '\t'

def isMeta (c : Char) : Bool :=
  isBlank c || ['\n', ';', '&', '|', '<', '>', '(', ')'].contains c

def skipBlanks : Nat → Reading Unit
  | 0 => pure ()
  | fuel + 1 => do
    match ← upcoming with
    | '#' :: cs => goOn (cs.dropWhile (· ≠ '\n'))
    | c :: cs =>
      if isBlank c then
        goOn (cs.dropWhile isBlank)
        skipBlanks fuel
      else pure ()
    | [] => pure ()

def endsHere (m : EndMark) : Reading Bool := do
  let s ← get
  let cs := if m.dropTabs then s.rest.dropWhile (· = '\t') else s.rest
  if cs.takeWhile (· ≠ '\n') = m.line then
    set { s with rest := cs.drop (m.line.length + 1), line := s.line + 1 }
    return true
  else
    goOn cs
    return false

def linesBefore (m : EndMark) : Nat → Reading Bytes
  | 0 => return []
  | fuel + 1 => do
    if ← endsHere m then return []
    let cs := (← get).rest
    let line := cs.takeWhile (· ≠ '\n')
    match cs.dropWhile (· ≠ '\n') with
    | [] =>
      goOn []
      return line
    | c :: rest =>
      passOver [c] rest
      return line ++ c :: (← linesBefore m fuel)

def Place.ofDocument (mark : EndMark) : Place := ⟨.document, true, true, false, some mark, false⟩

def readDocument (read : Readers) (p : Pending) : Reading Unit := do
  let body : Word ←
    if p.verbatim then do
      pure [.text true (← linesBefore p.mark ((← get).rest.length + 1))]
    else if ← endsHere p.mark then pure []
    else read (.pieces (.ofDocument p.mark))
  modify fun s => { s with documents := (p.number, body) :: s.documents }

def readPending (read : Readers) : Reading Unit := do
  let ps := (← get).pending
  modify fun s => { s with pending := [] }
  for p in ps do
    readDocument read p

def Place.ofWord (verbatim : Bool) : Place := ⟨.word, false, false, false, none, verbatim⟩

def arrowAt (sign : Char) : Reading Arrow := do
  if sign = '>' then
    if ← nextIs '>' then return .file .append
    if ← nextIs '|' then return .file .overwrite
    if ← nextIs '&' then return .copy
    return .file .write
  if ← nextIs '<' then return .document (← nextIs '-')
  if ← nextIs '&' then return .copy
  if ← nextIs '>' then return .file .both
  return .file .read

def readWord (read : Readers) (verbatim : Bool) : Reading Token := do
  let w ← read (.pieces (.ofWord verbatim))
  let fd? : Option (Option Nat) := match w with
    | [] => some none
    | [.text false [c]] => (Text.Numeral.digit? c).map some
    | _ => none
  match fd?, ← upcoming with
  | some fd, c :: cs =>
    if c = '<' || c = '>' then
      goOn cs
      return .redirect (fd.getD (if c = '>' then 1 else 0)) (← arrowAt c)
    else return .word w
  | _, _ => return .word w

def single (c : Char) (doubled once : Token) : Reading Token := do
  if ← nextIs c then return doubled else return once

def scan (read : Readers) (verbatim : Bool) : Reading Token := do
  let start := (← get).rest.length
  skipBlanks (start + 1)
  modify fun s => { s with
    goesOn := s.exchanges.any fun e => e.goesOn && e.after < start && s.rest.length ≤ e.after }
  match ← upcoming with
  | [] => return .finish
  | '\n' :: cs =>
    passOver ['\n'] cs
    return .newline
  | '&' :: cs =>
    goOn cs
    single '&' .both .ampersand
  | '|' :: cs =>
    goOn cs
    single '|' .either .bar
  | ';' :: cs =>
    goOn cs
    single ';' .endArm .semicolon
  | '(' :: cs =>
    goOn cs
    return .openBracket
  | ')' :: cs =>
    goOn cs
    return .closeBracket
  | _ => readWord read verbatim

def scanOrUnused (read : Readers) : Reading Token := do
  match (← get).unused with
  | some t =>
    modify fun s => { s with unused := none, goesOn := false }
    return t
  | none => scan read false

def unread (t : Token) : Reading Unit :=
  modify fun s => { s with unused := some t }

def passLines (read : Readers) (t : Token) : Nat → Reading Token
  | 0 => return t
  | fuel + 1 =>
    match t with
    | .newline => do
      readPending read
      passLines read (← scanOrUnused read) fuel
    | t => return t

def aliasOf? (name : Bytes) (s : Reader) : Option Bytes :=
  if s.exchanges.any fun e => e.name = name && e.after ≤ s.rest.length then none
  else s.aliases.lookup name

def nextWith (read : Readers) (look : Look) : Nat → Reading Token
  | 0 => return .finish
  | fuel + 1 => do
    let t ← scanOrUnused read
    let t ← if look.lines then passLines read t ((← get).rest.length + 2) else pure t
    match t with
    | .word w =>
      match plainText? w with
      | none => return t
      | some cs =>
        let name := String.ofList cs
        if look.keywords && keywords.contains name then return .keyword name
        let s ← get
        match if look.aliases || s.goesOn then aliasOf? cs s else none with
        | none => return t
        | some text =>
          set { s with
            rest := text ++ s.rest
            exchanges := ⟨cs, s.rest.length, text.getLast?.any isBlank⟩ :: s.exchanges }
          nextWith read look fuel
    | t => return t

def next (read : Readers) (look : Look) : Reading Token := do
  nextWith read look ((← get).aliases.length + 2)

def refuse {α : Type} (found : Token) (wanted : Option Token) : Reading α :=
  throw (.unexpected found.called (wanted.map Token.called))

end PushKeeper.Shell
