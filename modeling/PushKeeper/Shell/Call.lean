import PushKeeper.Shell.Builtin.Names
import PushKeeper.Shell.Redirection

namespace PushKeeper.Shell

structure Call where
  before : List Bytes
  words : List Bytes
  rest : List Word
  special : Option Bool
  skipsFunctions : Bool
  directories : Option Bytes

inductive Kind
  | nothing
  | command (name : String)
  | function (body : Command)
  | program
  deriving Inhabited

namespace Call

def name (c : Call) : Bytes := c.words.headD []

def kind (c : Call) (s : Session) : Kind :=
  if c.words.isEmpty then .nothing
  else if c.name.contains '/' then .program
  else
    match if c.skipsFunctions then none else s.functions.lookup c.name with
    | some body => .function body
    | none => if Builtin.isCommand c.name then .command (textOf c.name) else .program

def isApart (c : Call) : Bool := !c.words.isEmpty && c.special != some true

def expandNext (run : Runner) : List Word → Run (List Bytes × List Word)
  | [] => return ([], [])
  | w :: ws => do
    let fields ← expandWord run w
    if fields.isEmpty then expandNext run ws else return (fields, ws)

def withWords (run : Runner) (count : Nat) (c : Call) : Run Call := do
  if count < c.words.length then return c
  let (fields, rest) ← expandNext run c.rest
  return { c with words := c.words ++ fields, rest }

inductive Role
  | usual
  | last
  | none
  | other
  deriving DecidableEq

def roleOf (word : Bytes) : Role :=
  match word with
  | ['-', '-'] => .last
  | '-' :: c :: cs => if (c :: cs).all (· = 'p') then .usual else .other
  | _ => .none

def peel (run : Runner) (usual : Bool) : Nat → Nat → Call → Run (Call × Bool)
  | 0, _, c => return (c, false)
  | fuel + 1, place, c => do
    let c ← c.withWords run place
    let peeled (c : Call) (place : Nat) : Call × Bool :=
      ({ c with
        before := c.before ++ c.words.take place
        words := c.words.drop place
        skipsFunctions := true
        directories := if usual then some Builtin.usualDirectories else c.directories }, true)
    match c.words[place]? with
    | none => return (c, false)
    | some word =>
      match roleOf word with
      | .usual => peel run true fuel (place + 1) c
      | .other => return (c, false)
      | .none => return peeled c place
      | .last => do
        let c ← c.withWords run (place + 1)
        return if c.words.length ≤ place + 1 then (c, false) else peeled c (place + 1)

def resolve (run : Runner) : Nat → Call → Run Call
  | 0, c => return c
  | fuel + 1, c => do
    match c.kind (← get) with
    | .command name =>
      let c := { c with special := c.special.or (some (Builtin.isSpecial c.name)) }
      if name ≠ "command" then return c
      let (c, isPeeled) ← peel run false fuel 1 c
      if isPeeled then resolve run fuel c else return c
    | _ => return c

def assigning : List String := ["alias", "export", "local", "readonly"]

def expandRest (run : Runner) (assigns : Bool) : List Word → Run (List Bytes)
  | [] => return []
  | w :: ws => do
    let first ←
      if assigns && (Assignment.ofWord? w).isSome then do pure [← expandText run .value w]
      else expandWord run w
    return first ++ (← expandRest run assigns ws)

def patience : Nat := 1000

def ofWords (run : Runner) (words : List Word) : Run Call := do
  let (fields, rest) ← expandNext run words
  let c ← resolve run patience ⟨[], fields, rest, none, false, none⟩
  let assigns := match c.kind (← get) with
    | .command name => assigning.contains name
    | _ => false
  return { c with words := c.words ++ (← expandRest run assigns c.rest), rest := [] }

end Call

end PushKeeper.Shell
