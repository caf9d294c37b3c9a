import PushKeeper.Shell.Reading

namespace PushKeeper.Shell

def Piece.cons : Piece → List Piece → List Piece
  | .text q cs, .text r ds :: ps =>
    if q = r then .text q (cs ++ ds) :: ps else .text q cs :: .text r ds :: ps
  | p, ps => p :: ps

def Place.fault? (p : Place) : Option SyntaxFault :=
  match p.ending with
  | .sum => some .openSum
  | .bracket => some .openSum
  | .quote => some (if p.double && p.document.isNone then .openQuote else .openBrace)
  | .brace => some (if p.double && p.document.isNone then .openQuote else .openBrace)
  | .word => none
  | .document => none

def Place.inQuotes (p : Place) : Place :=
  { p with ending := .quote, double := true, quoted := true }

def Place.ofOperator (p : Place) : Operator → Place
  | .cutFront _ => { p with ending := .brace, double := false, quoted := false, nested := true }
  | .cutBack _ => { p with ending := .brace, double := false, quoted := false, nested := true }
  | _ => { p with ending := .brace, nested := true }

def Place.inSum (p : Place) : Place :=
  ⟨.sum, true, true, false, p.document, false⟩

def Place.protects (p : Place) (c : Char) : Bool :=
  !p.double || c == '\\' || c == '`' || c == '$' ||
    (c == '"' && (p.document.isNone || p.nested)) || (c == '\x7d' && p.nested)

def isOrdinary (c : Char) : Bool :=
  !isMeta c && !(['\\', '\'', '"', '$', '`', '\x7d'].contains c)

def splitQuote? : List Char → Option (Bytes × List Char)
  | [] => none
  | c :: cs => if c = '\'' then some ([], cs) else (splitQuote? cs).map fun (a, b) => (c :: a, b)

def splitBackquote? (double : Bool) : List Char → Option (Bytes × List Char)
  | [] => none
  | '`' :: cs => some ([], cs)
  | '\\' :: '\n' :: cs => splitBackquote? double cs
  | '\\' :: c :: cs =>
    (splitBackquote? double cs).map fun (a, b) =>
      if c = '`' || c = '$' || c = '\\' || (double && c = '"') then (c :: a, b)
      else ('\\' :: c :: a, b)
  | c :: cs => (splitBackquote? double cs).map fun (a, b) => (c :: a, b)

def isSpecial (c : Char) : Bool :=
  c.isDigit || ['@', '*', '#', '?', '-', '$', '!'].contains c

def takeAll (kind : Char → Bool) : Nat → Reading Bytes
  | 0 => return []
  | fuel + 1 => do
    match ← upcoming with
    | c :: cs =>
      if kind c then
        goOn (cs.dropWhile kind)
        return c :: cs.takeWhile kind ++ (← takeAll kind fuel)
      else return []
    | [] => return []

def nameHere : Reading Bytes := do
  let cs ← upcoming
  let fuel := cs.length + 1
  match cs with
  | c :: _ =>
    if isNameStart c then takeAll isNameChar fuel
    else if c.isDigit then takeAll Char.isDigit fuel
    else return []
  | [] => return []

def operatorHere : Reading (Operator × Bool) := do
  let colon ← nextIs ':'
  match ← upcoming with
  | [] => return (.bad, true)
  | c :: cs =>
    goOn cs
    match c with
    | '\x7d' => return (.plain, colon)
    | '-' => return (.whenAbsent colon, true)
    | '=' => return (.assignAbsent colon, true)
    | '?' => return (.failAbsent colon, true)
    | '+' => return (.whenPresent colon, true)
    | '#' => if colon then return (.bad, true) else return (.cutFront (← nextIs '#'), true)
    | '%' => if colon then return (.bad, true) else return (.cutBack (← nextIs '%'), true)
    | _ => return (.bad, true)

def operation (read : Readers) (p : Place) (name : Bytes) : Reading Piece := do
  let (op, goesOn) ← operatorHere
  let word ← if goesOn then read (.pieces (p.ofOperator op)) else pure []
  return .parameter p.quoted name op word

def nameless (read : Readers) (p : Place) : Reading Piece := do
  return .parameter p.quoted [] .bad (← read (.pieces (p.ofOperator .bad)))

def lengthOrCount (read : Readers) (p : Place) : Reading Piece := do
  let lengthOf (name : Bytes) : Reading Piece := do
    if ← nextIs '\x7d' then return .parameter p.quoted name .length []
    else
      let word ← read (.pieces (p.ofOperator .bad))
      return .parameter p.quoted name .bad word
  match ← nameHere with
  | [] =>
    match ← upcoming with
    | c :: '\x7d' :: cs =>
      if c = '\x7d' then operation read p ['#']
      else if isSpecial c then
        goOn cs
        return .parameter p.quoted [c] .length []
      else
        goOn ('\x7d' :: cs)
        nameless read p
    | _ => operation read p ['#']
  | name => lengthOf name

def braced (read : Readers) (p : Place) : Reading Piece := do
  match ← nameHere with
  | [] =>
    match ← upcoming with
    | '#' :: cs =>
      goOn cs
      lengthOrCount read p
    | '\x7d' :: _ => nameless read p
    | c :: cs =>
      goOn cs
      if isSpecial c then operation read p [c] else nameless read p
    | [] => nameless read p
  | name => operation read p name

def bracketed (read : Readers) (p : Place) : Reading Piece := do
  let outer := (← get).pending
  modify fun s => { s with pending := [] }
  let body ← read (.list .any)
  match ← next read .plain with
  | .closeBracket =>
    modify fun s => { s with pending := outer }
    return .command p.quoted body
  | t => refuse t (some .closeBracket)

/-- The commands in backquotes, after the first of them. They are a script of their own. -/
def backquoted (read : Readers) (p : Place) : Reading Piece := do
  let s ← get
  match splitBackquote? p.double s.rest with
  | none =>
    modify fun s => { s with line := s.line + s.rest.count '\n' }
    throw .openBackquote
  | some (text, after) =>
    set { s with rest := text, line := 1, pending := [] }
    let body ← read (.list .any)
    let used := s.rest.take (s.rest.length - after.length)
    modify fun t => { t with
      rest := after
      line := s.line + used.count '\n'
      unused := none
      pending := s.pending }
    return .command p.quoted body

def dollar (read : Readers) (p : Place) : Reading Piece := do
  match ← upcoming with
  | '(' :: cs => do
    goOn cs
    if ← nextIs '(' then
      return .arithmetic p.quoted (← read (.pieces p.inSum))
    else bracketed read p
  | '\x7b' :: cs => do
    goOn cs
    braced read p
  | c :: cs => do
    if isNameStart c then return .parameter p.quoted (← nameHere) .plain []
    else if isSpecial c then
      goOn cs
      return .parameter p.quoted [c] .plain []
    else return .text p.double ['$']
  | [] => return .text p.double ['$']

def doubleQuoted (read : Readers) (p : Place) : Reading (List Piece) := do
  let inner ← read (.pieces p.inQuotes)
  if p.double then return inner
  match inner with
  | [.parameter true ['@'] .plain []] => return inner
  | inner => return .mark :: inner

def pieces (read : Readers) (p : Place) : Reading (List Piece) := do
  let more (piece : Piece) : Reading (List Piece) := do
    return piece.cons (← read (.pieces p))
  let text (quoted : Bool) (used rest : List Char) : Reading (List Piece) := do
    passOver used rest
    more (.text (quoted || p.double) used)
  let finish (ps : List Piece) : Reading (List Piece) :=
    match p.fault? with
    | some fault => throw fault
    | none => return ps
  match ← upcoming with
  | [] => finish []
  | c :: cs =>
    let ordinary := (c :: cs).takeWhile isOrdinary
    if !ordinary.isEmpty then text false ordinary ((c :: cs).dropWhile isOrdinary)
    else
      match c, p.ending with
      | '"', .quote =>
        goOn cs
        return []
      | '\x7d', .brace =>
        goOn cs
        return []
      | ')', .bracket =>
        goOn cs
        return []
      | ')', .sum =>
        goOn cs
        if ← nextIs ')' then return [] else more (.text true [')'])
      | '(', .sum =>
        goOn cs
        let inner : List Piece ← read (.pieces { p with ending := .bracket })
        let after : List Piece ← read (.pieces p)
        return .cons (.text true ['(']) (inner ++ .text true [')'] :: after)
      | '(', .bracket =>
        goOn cs
        let inner : List Piece ← read (.pieces p)
        let after : List Piece ← read (.pieces p)
        return .cons (.text true ['(']) (inner ++ .text true [')'] :: after)
      | '\\', _ =>
        match cs with
        | [] => text true ['\\'] []
        | d :: rest =>
          if p.protects d then
            passOver [d] rest
            more (.text true [d])
          else text true ['\\', d] rest
      | '$', _ =>
        if p.verbatim then text false ['$'] cs
        else
          goOn cs
          more (← dollar read p)
      | '`', _ =>
        if p.verbatim then text false ['`'] cs
        else
          goOn cs
          more (← backquoted read p)
      | '"', .document => text true ['"'] cs
      | '"', .sum => text true ['"'] cs
      | '"', .bracket => text true ['"'] cs
      | '"', _ =>
        goOn cs
        let inner ← doubleQuoted read p
        let after : List Piece ← read (.pieces p)
        return inner ++ after
      | '\'', _ =>
        if p.double then text true ['\''] cs
        else
          match splitQuote? cs with
          | none =>
            modify fun s => { s with line := s.line + cs.count '\n' }
            throw .openQuote
          | some (inner, rest) =>
            passOver inner rest
            return .mark :: .cons (.text true inner) (← read (.pieces p))
      | c, .word => if isMeta c then return [] else text false [c] cs
      | c, _ =>
        match c, p.document with
        | '\n', some m =>
          passOver [c] cs
          let piece : Piece := .text p.double [c]
          if ← endsHere m then finish [piece] else more piece
        | _, _ => text false [c] cs

end PushKeeper.Shell
