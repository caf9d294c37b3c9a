import PushKeeper.Shell.Word

namespace PushKeeper.Shell

def expect (read : Readers) (wanted : String) : Reading Unit := do
  match ← next read .plain with
  | .keyword name =>
    if name = wanted then pure () else refuse (.keyword name) (some (.keyword wanted))
  | t => refuse t (some (.keyword wanted))

def expectLater (read : Readers) (wanted : String) : Reading Unit := do
  unread (← next read .anyLine)
  expect read wanted

def list (read : Readers) (extent : Extent) : Reading (List Command) := do
  let look : Look := if extent = .line then .command else .anyLine
  match ← next read look with
  | .newline =>
    readPending read
    return []
  | .finish =>
    readPending read
    unread .finish
    return []
  | t =>
    unread t
    if extent = .any && t.endsList then return [] else listItem
where
  listItem : Reading (List Command) := do
    let after : Extent := if extent = .line then .line else .any
    let c : Command ← read .andOr
    match ← next read .plain with
    | .ampersand =>
      let cs : List Command ← read (.list after)
      return .aside c :: cs
    | .semicolon =>
      let cs : List Command ← read (.list after)
      return c :: cs
    | .newline =>
      unread .newline
      let cs : List Command ← read (.list after)
      return c :: cs
    | .finish =>
      readPending read
      unread .finish
      return [c]
    | t =>
      if extent = .line then refuse t none
      else
        unread t
        return [c]

def moreAndOr (read : Readers) (first : Command) : Reading Command := do
  match ← next read .plain with
  | .both =>
    let second : Command ← read (.pipeline .anyLine)
    read (.moreAndOr (.both first second))
  | .either =>
    let second : Command ← read (.pipeline .anyLine)
    read (.moreAndOr (.either first second))
  | t =>
    unread t
    return first

def pipeWith (read : Readers) (look : Look) : Nat → Reading (List Command)
  | 0 => return []
  | fuel + 1 => do
    let c : Command ← read (.command look)
    match ← next read .plain with
    | .bar => return c :: (← pipeWith read .anyLine fuel)
    | t =>
      unread t
      return [c]

def pipeline (read : Readers) (look : Look) : Reading Command := do
  let body (look : Look) : Reading Command := do
    match ← pipeWith read look ((← get).rest.length + 2) with
    | [c] => return c
    | cs => return .pipe cs
  match ← next read look with
  | .keyword "!" => return .negated (← body .command)
  | t =>
    unread t
    body .plain

def redirectTo (read : Readers) (fd : Nat) (arrow : Arrow) : Reading Redirect := do
  let isDocument := match arrow with
    | .document _ => true
    | _ => false
  let t ← if isDocument then scan read true else next read .plain
  match t, arrow with
  | .word w, .file kind => return .file fd kind w
  | .word w, .copy =>
    match plainText? w with
    | some ['-'] => return .close fd
    | some [c] =>
      match Text.Numeral.digit? c with
      | some source => return .copy fd source
      | none => return .copyWord fd w
    | _ => return .copyWord fd w
  | .word w, .document dropTabs =>
    let (mark, verbatim) := literalText w
    let number := (← get).fresh
    let text : Pending := ⟨number, ⟨mark, dropTabs⟩, verbatim⟩
    modify fun s => { s with pending := s.pending ++ [text], fresh := number + 1 }
    return .document fd number
  | t, _ => refuse t none

def redirects (read : Readers) : Nat → Reading (List Redirect)
  | 0 => return []
  | fuel + 1 => do
    match ← next read .command with
    | .redirect fd arrow =>
      let r ← redirectTo read fd arrow
      return r :: (← redirects read fuel)
    | t =>
      unread t
      return []

def specialCommands : List String :=
  [".", ":", "break", "continue", "eval", "exec", "exit", "export", "local", "readonly", "return",
    "set", "shift", "times", "trap", "unset"]

def function (read : Readers) (name : Word) : Reading Command := do
  match ← next read .plain with
  | .closeBracket =>
    match (plainText? name).filter fun cs =>
        isName cs && !specialCommands.contains (String.ofList cs) with
    | none => throw .badFunctionName
    | some cs =>
      let line := (← get).line
      return .define line cs (← read (.command .anyLine))
  | t => refuse t (some .closeBracket)

structure Simple where
  assignments : List Assignment
  words : List Word
  redirects : List Redirect

def simpleWith (read : Readers) (line : Nat) (c : Simple) : Nat → Reading Command
  | 0 => return .simple line c.assignments c.words c.redirects
  | fuel + 1 => do
    match ← next read (if c.words.isEmpty then .first else .plain) with
    | .word w =>
      match if c.words.isEmpty then Assignment.ofWord? w else none with
      | some a => simpleWith read line { c with assignments := c.assignments ++ [a] } fuel
      | none => simpleWith read line { c with words := c.words ++ [w] } fuel
    | .redirect fd arrow =>
      let r ← redirectTo read fd arrow
      simpleWith read line { c with redirects := c.redirects ++ [r] } fuel
    | t =>
      match t, c with
      | .openBracket, ⟨[], [name], []⟩ => function read name
      | t, c =>
        unread t
        return .simple line c.assignments c.words c.redirects

def branch (read : Readers) : Nat → Reading Command
  | 0 => return .group []
  | fuel + 1 => do
    let test ← read (.list .some)
    expect read "then"
    let yes ← read (.list .some)
    match ← next read .plain with
    | .keyword "elif" => return .branch test yes (some [← branch read fuel])
    | .keyword "else" => return .branch test yes (some (← read (.list .some)))
    | t =>
      unread t
      return .branch test yes none

def allArguments : Word := [.parameter true ['@'] .plain []]

def wordsWith (read : Readers) : Nat → Reading (List Word × Token)
  | 0 => return ([], .finish)
  | fuel + 1 => do
    match ← next read .plain with
    | .word w =>
      let (ws, t) ← wordsWith read fuel
      return (w :: ws, t)
    | t => return ([], t)

def loopVariable (read : Readers) : Reading Bytes := do
  match ← next read .plain with
  | .word w =>
    match (plainText? w).filter isName with
    | some name => return name
    | none => throw .badLoopVariable
  | _ => throw .badLoopVariable

def forEach (read : Readers) (line : Nat) : Reading Command := do
  let name ← loopVariable read
  let words ← match ← next read .anyLine with
    | .keyword "in" => do
      let (words, t) ← wordsWith read ((← get).rest.length + 2)
      match t with
      | .newline =>
        readPending read
        pure words
      | .semicolon => pure words
      | t => refuse t none
    | .semicolon => pure [allArguments]
    | t => do
      unread t
      pure [allArguments]
  expectLater read "do"
  return .forEach line name words (← read (.list .some))

def patterns (read : Readers) (t : Token) : Nat → Reading (List Word)
  | 0 => return []
  | fuel + 1 => do
    let w : Word := match t with
      | .word w => w
      | .keyword name => [.text false name.toList]
      | _ => []
    match ← next read .plain with
    | .bar => return w :: (← patterns read (← next read .plain) fuel)
    | .closeBracket => return [w]
    | t => refuse t (some .closeBracket)

def arms (read : Readers) : Nat → Reading (List Arm)
  | 0 => return []
  | fuel + 1 => do
    match ← next read .arm with
    | .keyword "esac" => return []
    | t =>
      let first ← match t with
        | .openBracket => next read .plain
        | t => pure t
      let ps ← patterns read first ((← get).rest.length + 2)
      let body : List Command ← read (.list .any)
      match ← next read .arm with
      | .keyword "esac" => return [.mk ps body]
      | .endArm => return .mk ps body :: (← arms read fuel)
      | t => refuse t (some .endArm)

def choose (read : Readers) (line : Nat) : Reading Command := do
  match ← next read .plain with
  | .word w =>
    expectLater read "in"
    return .choose line w (← arms read ((← get).rest.length + 2))
  | t => refuse t (some (.word []))

def compound (read : Readers) (line : Nat) (body : Reading Command) : Reading Command := do
  let c ← body
  match c, ← redirects read ((← get).rest.length + 2) with
  | c, [] => return c
  | .subshell line body _, rs => return .subshell line body rs
  | c, rs => return .redirected line c rs

def command (read : Readers) (look : Look) : Reading Command := do
  let t ← next read look
  let line := (← get).line
  let fuel := (← get).rest.length + 2
  match t with
  | .keyword "if" => compound read line do
    let c ← branch read fuel
    expect read "fi"
    return c
  | .keyword "while" => compound read line (loop .whileTrue)
  | .keyword "until" => compound read line (loop .untilTrue)
  | .keyword "for" => compound read line do
    let c ← forEach read line
    expect read "done"
    return c
  | .keyword "case" => compound read line (choose read line)
  | .keyword "\x7b" => compound read line do
    let body ← read (.list .some)
    expect read "\x7d"
    return .group body
  | .openBracket => compound read line do
    let body ← read (.list .some)
    match ← next read .plain with
    | .closeBracket => return .subshell line body []
    | t => refuse t (some .closeBracket)
  | .word w =>
    unread (.word w)
    simpleWith read line ⟨[], [], []⟩ (fuel + 1)
  | .redirect fd arrow =>
    unread (.redirect fd arrow)
    simpleWith read line ⟨[], [], []⟩ (fuel + 1)
  | t => refuse t none
where
  loop (kind : LoopKind) : Reading Command := do
    let test ← read (.list .some)
    expect read "do"
    let body ← read (.list .some)
    expect read "done"
    return .loop kind test body

def readGoal (read : Readers) : Readers
  | .pieces p => pieces read p
  | .list extent => list read extent
  | .pipeline look => pipeline read look
  | .andOr => do
    let first : Command ← read (.pipeline .plain)
    read (.moreAndOr first)
  | .moreAndOr first => moreAndOr read first
  | .command look => command read look

def readers : Nat → Readers
  | 0 => fun _ => throw .openQuote
  | depth + 1 => readGoal (readers depth)

structure Line where
  commands : List Command
  documents : List (Nat × Word)
  rest : Bytes
  line : Nat
  fresh : Nat

/-- The commands of the first line of a script, which has this number, and the script after it; a
fault comes with the number of the line that it is in. Every reader uses up a character or calls one
that does within a few steps. -/
def readLine (aliases : List (Bytes × Bytes)) (fresh line : Nat) (script : Bytes) :
    Except (SyntaxFault × Nat) Line :=
  let spare := aliases.foldl (fun n (_, text) => n + text.length + 1) 0
  let depth := 16 * (script.length + 1) * (spare + 1) + 64
  let start : Reader := ⟨script, line, none, [], [], fresh, aliases, [], false⟩
  match (readers depth (.list .line)).run start with
  | (.ok cs, r) => .ok ⟨cs, r.documents, r.rest, r.line, r.fresh⟩
  | (.error fault, r) => .error (fault, r.line)

def readText (cs : Bytes) : Except SyntaxFault Word :=
  let start : Reader := ⟨cs, 1, none, [], [], 0, [], [], false⟩
  ((readers (16 * (cs.length + 1) + 64) (.pieces (.ofDocument .never))).run start).1

end PushKeeper.Shell
