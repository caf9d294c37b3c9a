import PushKeeper.Shell.Arithmetic
import PushKeeper.Shell.Field
import PushKeeper.Shell.Glob
import PushKeeper.Shell.Process

namespace PushKeeper.Shell

inductive TildeRule
  | never
  | start
  | value
  deriving DecidableEq

structure Mode where
  full : Bool
  cuts : Bool
  tilde : TildeRule
  deriving DecidableEq

def homeOf? (s : Session) (user : Bytes) : Option Bytes :=
  if user.isEmpty then s.lookUp? "HOME".toList
  else do
    let users ← (s.tree.read "/etc/passwd").toOption
    (linesOf (unpacked users)).findSome? fun line =>
      match (line.filter (· ≠ '\n')).splitOn ':' with
      | name :: _ :: _ :: _ :: _ :: home :: _ => if name = user then some home else none
      | _ => none

def tildeParts (s : Session) (rule : TildeRule) (closed : Bool) (part : Bytes → Part) :
    Nat → Bool → Bytes → List Part
  | 0, _, cs => [part cs]
  | fuel + 1, atStart, cs =>
    let ends (c : Char) : Bool := c == '/' || (rule == .value && c == ':')
    let plain : List Part :=
      if rule = .value && cs.contains ':' then
        let head := cs.takeWhile (· ≠ ':')
        part (head ++ [':']) :: tildeParts s rule closed part fuel true (cs.drop (head.length + 1))
      else [part cs]
    match atStart, cs with
    | true, '~' :: rest =>
      let user := rest.takeWhile (!ends ·)
      let after := rest.dropWhile (!ends ·)
      if after.isEmpty && !closed then plain
      else
        match homeOf? s user with
        | some home => .fixed true home :: tildeParts s rule closed part fuel false after
        | none => plain
    | _, [] => []
    | _, _ => plain

def optionLetters : List Char :=
  ['p', 'u', 'b', 'a', 'C', 'E', 'V', 'v', 'x', 's', 'n', 'm', 'i', 'I', 'f', 'e']

def joint (s : Session) : Bytes :=
  match s.separators with
  | none => [' ']
  | some separators => separators.take 1

def special? (s : Session) (name : Bytes) : Option Bytes :=
  match name with
  | ['#'] => some (Text.Numeral.digits s.arguments.length)
  | ['?'] => some (Text.Numeral.digits s.status)
  | ['$'] => some (Text.Numeral.digits s.root)
  | ['-'] => some (optionLetters.filter s.options.contains)
  | ['!'] => s.jobs.head?.map fun job => Text.Numeral.digits job.process
  | name =>
    match Text.Numeral.parse? (Nat.pow 2 31) (String.ofList name) with
    | some 0 => some s.title
    | some n => s.arguments[n - 1]?
    | none => none

def isAll (name : Bytes) : Bool := name == ['@'] || name == ['*']

def allJoint (s : Session) (mode : Mode) (quoted : Bool) (name : Bytes) : Bytes :=
  if !mode.full || (quoted && name == ['*']) then joint s
  else if quoted || s.separators.isSome then [border]
  else [' ']

def parameter? (s : Session) (mode : Mode) (quoted : Bool) (name : Bytes) : Option Bytes :=
  if isAll name then some ((allJoint s mode quoted name).intercalate s.arguments)
  else if isName name then s.lookUp? name
  else special? s name

def valueParts (s : Session) (mode : Mode) (quoted : Bool) (name value : Bytes) : List Part :=
  if !quoted then [.loose value]
  else if mode.full && name = ['@'] then
    if s.arguments.isEmpty then [] else [.arguments value]
  else [.fixed true value]

def requireSet (name : Bytes) (value : Option Bytes) : Run Unit := do
  if value.isNone && (← get).options.contains 'u' then
    fail (name ++ bytesOf ": parameter not set")

def parameterParts (mode : Mode) (quoted : Bool) (name : Bytes) (op : Operator) (isBare : Bool)
    (word : Mode → Run (List Part)) : Run (List Part) := do
  let parts (value : Option Bytes) : Run (List Part) := do
    return (value.map (valueParts (← get) mode quoted name)).getD []
  let current : Run (Option Bytes) := do return parameter? (← get) mode quoted name
  let counts (colon : Bool) (value : Option Bytes) : Option Bytes :=
    value.filter fun v => !colon || !v.isEmpty
  let inner : Mode := { mode with cuts := !quoted, tilde := .start }
  let outer : Mode := ⟨false, false, .start⟩
  match op with
  | .bad => fail (bytesOf "Bad substitution")
  | .plain =>
    let value ← current
    requireSet name value
    parts value
  | .length =>
    let value ← current
    requireSet name value
    let digits := Text.Numeral.digits (value.getD []).length
    return [if quoted then .fixed true digits else .loose digits]
  | .whenAbsent colon =>
    match counts colon (← current) with
    | some value => parts (some value)
    | none => word inner
  | .whenPresent colon =>
    match counts colon (← current) with
    | some _ => word inner
    | none => return []
  | .assignAbsent colon =>
    match counts colon (← current) with
    | some value => parts (some value)
    | none =>
      setVariable name (whole (← word outer))
      parts (← current)
  | .failAbsent colon =>
    match counts colon (← current) with
    | some value => parts (some value)
    | none =>
      let text := whole (← word outer)
      let why := if !isBare then text
        else bytesOf (if colon then "parameter not set or null" else "parameter not set")
      fail (name ++ [':', ' '] ++ why)
  | .cutFront longest =>
    let value ← current
    requireSet name value
    let pattern := asPattern (← word outer)
    parts (value.map (cutFront longest pattern))
  | .cutBack longest =>
    let value ← current
    requireSet name value
    let pattern := asPattern (← word outer)
    parts (value.map (cutBack longest pattern))

def withoutEnds (cs : Bytes) : Bytes := (cs.reverse.dropWhile (· = '\n')).reverse

def outputOf (run : Runner) (body : List Command) : Run Bytes := do
  if body.isEmpty then return []
  let (text, ended) ← captured (toItsEnd run (run (.commands body ⟨false, true⟩)))
  announce ended
  modify fun s => { s with innerStatus := ended.status }
  return withoutEnds (text.filter (· ≠ '\x00'))

def sumOf (cs : Bytes) : Run Bytes := do
  let s ← get
  match Arithmetic.evaluate (fun name => (s.lookUp? name).getD []) cs with
  | .error fault => fail (fault.message cs)
  | .ok (n, assigned) =>
    for (name, value) in assigned do
      setVariable name (Arithmetic.render value)
    return Arithmetic.render n

mutual

def pieceParts (run : Runner) (mode : Mode) (atStart closed : Bool) : Piece → Run (List Part)
  | .text true cs => return [.fixed true cs]
  | .text false cs => do
    let part : Bytes → Part := if mode.cuts then .loose else .fixed false
    if mode.tilde = .never then return [part cs]
    else return tildeParts (← get) mode.tilde closed part (2 * cs.length + 2) atStart cs
  | .mark => return [.mark]
  | .parameter quoted name op word =>
    parameterParts mode quoted name op word.isEmpty fun m => wordParts run m true word
  | .command quoted body => do
    let text ← outputOf run body
    return [if quoted then .fixed true text else .loose text]
  | .arithmetic quoted expression => do
    let text ← sumOf (whole (← wordParts run ⟨false, false, .never⟩ true expression))
    return [if quoted then .fixed true text else .loose text]

def wordParts (run : Runner) (mode : Mode) (atStart : Bool) : List Piece → Run (List Part)
  | [] => return []
  | piece :: rest => do
    let first ← pieceParts run mode atStart rest.isEmpty piece
    return first ++ (← wordParts run mode false rest)

end

def expandText (run : Runner) (tilde : TildeRule) (w : Word) : Run Bytes := do
  return whole (← wordParts run ⟨false, false, tilde⟩ true w)

def expandPattern (run : Runner) (w : Word) : Run (List Mark) := do
  return asPattern (← wordParts run ⟨false, false, .start⟩ true w)

def expandWord (run : Runner) (w : Word) : Run (List Bytes) := do
  let parts ← wordParts run ⟨true, false, .start⟩ true w
  let s ← get
  let fields := fields (s.separators.getD usualSeparators) parts
  return fields.flatMap fun field =>
    if s.options.contains 'f' then [asText field]
    else
      match globbed s.tree field with
      | [] => [asText field]
      | paths => paths

def expandWords (run : Runner) : List Word → Run (List Bytes)
  | [] => return []
  | w :: ws => do
    let first ← expandWord run w
    return first ++ (← expandWords run ws)

end PushKeeper.Shell
