import PushKeeper.Shell.Bytes

namespace PushKeeper.Shell

/-- What is done with the value of a parameter. With a colon, an empty value counts as none. -/
inductive Operator
  | plain
  | length
  | whenAbsent (colon : Bool)
  | assignAbsent (colon : Bool)
  | failAbsent (colon : Bool)
  | whenPresent (colon : Bool)
  | cutFront (longest : Bool)
  | cutBack (longest : Bool)
  | bad
  deriving DecidableEq

inductive OpenKind
  | read
  | write
  | append
  | both
  | overwrite
  deriving DecidableEq

inductive LoopKind
  | whileTrue
  | untilTrue
  deriving DecidableEq

mutual

inductive Piece
  | text (quoted : Bool) (cs : Bytes)
  | mark
  | parameter (quoted : Bool) (name : Bytes) (op : Operator) (word : List Piece)
  | command (quoted : Bool) (body : List Command)
  | arithmetic (quoted : Bool) (expression : List Piece)

inductive Redirect
  | file (fd : Nat) (kind : OpenKind) (path : List Piece)
  | copy (fd : Nat) (source : Nat)
  | close (fd : Nat)
  | copyWord (fd : Nat) (source : List Piece)
  | document (fd : Nat) (number : Nat)

inductive Assignment
  | mk (name : Bytes) (value : List Piece)

inductive Arm
  | mk (patterns : List (List Piece)) (body : List Command)

inductive Command
  | simple (line : Nat) (assignments : List Assignment) (words : List (List Piece))
    (redirects : List Redirect)
  | redirected (line : Nat) (body : Command) (redirects : List Redirect)
  | group (body : List Command)
  | subshell (line : Nat) (body : List Command) (redirects : List Redirect)
  | branch (test yes : List Command) (no : Option (List Command))
  | loop (kind : LoopKind) (test body : List Command)
  | forEach (line : Nat) (name : Bytes) (words : List (List Piece)) (body : List Command)
  | choose (line : Nat) (subject : List Piece) (arms : List Arm)
  | both (first second : Command)
  | either (first second : Command)
  | negated (body : Command)
  | pipe (commands : List Command)
  | define (line : Nat) (name : Bytes) (body : Command)
  | aside (body : Command)

end

abbrev Word := List Piece

instance : Inhabited Command := ⟨.group []⟩

def plainText? : Word → Option Bytes
  | [.text false cs] => some cs
  | _ => none

def literalText (w : Word) : Bytes × Bool :=
  w.foldl (fun (text, isQuoted) piece =>
    match piece with
    | .text q cs => (text ++ cs, isQuoted || q)
    | .mark => (text, true)
    | _ => (text, isQuoted)) ([], false)

def Assignment.ofWord? : Word → Option Assignment
  | .text false cs :: rest =>
    (assignment? cs).map fun (name, value) =>
      .mk name (if value.isEmpty then rest else .text false value :: rest)
  | _ => none

end PushKeeper.Shell
