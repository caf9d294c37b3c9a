import PushKeeper.Shell.Pattern

namespace PushKeeper.Shell

def border : Char := '\x00'

inductive Part
  | fixed (quoted : Bool) (cs : Bytes)
  | loose (cs : Bytes)
  | arguments (cs : Bytes)
  | mark
  deriving DecidableEq

def usualSeparators : Bytes := [' ', '\t', '\n']

def isSeparator (separators : Bytes) (c : Char) : Bool :=
  c == border || separators.contains c

def isSoft (c : Char) : Bool := c == border || usualSeparators.contains c

structure Cutting where
  finished : List (List Mark)
  current : List Mark
  started : Bool
  afterArguments : Bool

namespace Cutting

def empty : Cutting := ⟨[], [], false, false⟩

def push (c : Cutting) (m : Mark) : Cutting :=
  { c with current := m :: c.current, started := true }

def finish (c : Cutting) : Cutting :=
  { c with finished := c.current.reverse :: c.finished, current := [], started := false }

/-- Cuts the text of an expansion. After a field has ended with a blank one, `soft`, another separator
may follow; after that only blank ones are passed over, `passing`. -/
def loose (separators : Bytes) (c : Cutting) (passing soft : Bool) : Bytes → Cutting
  | [] => c
  | x :: xs =>
    if !isSeparator separators x then loose separators (c.push ⟨x, true⟩) false false xs
    else if passing && isSoft x then loose separators c true soft xs
    else if passing && soft then loose separators c true false xs
    else if !c.started && isSoft x && !c.afterArguments then loose separators c false false xs
    else loose separators c.finish true (isSoft x) xs

def arguments (c : Cutting) : Bytes → Cutting
  | [] => c
  | x :: xs => if x = border then arguments c.finish xs else arguments (c.push ⟨x, false⟩) xs

def add (separators : Bytes) (c : Cutting) : Part → Cutting
  | .fixed quoted cs =>
    { cs.foldl (fun c x => c.push ⟨x, !quoted⟩) c with
      afterArguments := c.afterArguments && cs.isEmpty }
  | .mark => { c with started := true, afterArguments := false }
  | .loose cs => { loose separators c false false cs with afterArguments := false }
  | .arguments cs => { arguments c cs with afterArguments := true }

def toFields (c : Cutting) : List (List Mark) :=
  (if c.started || c.afterArguments then c.finish else c).finished.reverse

end Cutting

def fields (separators : Bytes) (parts : List Part) : List (List Mark) :=
  (parts.foldl (Cutting.add separators) .empty).toFields

def asText (marks : List Mark) : Bytes := marks.map (·.char)

def Part.marks : Part → List Mark
  | .fixed quoted cs => cs.map (⟨·, !quoted⟩)
  | .loose cs => cs.map (⟨·, true⟩)
  | .arguments cs => cs.map (⟨·, false⟩)
  | .mark => []

def asPattern (parts : List Part) : List Mark := parts.flatMap Part.marks

def whole (parts : List Part) : Bytes := asText (asPattern parts)

structure Sharing where
  finished : List Bytes
  current : Bytes
  kept : Option Nat
  soft : Bool
  passing : Bool
  left : Nat

namespace Sharing

def push (s : Sharing) (x : Char) : Sharing :=
  { s with current := x :: s.current, passing := false }

/-- Shares out a character that may be a separator. The last variable gets all that is left: its
separators too, but for blank ones at the end, and for a single one of another kind if nothing but
blank ones comes after it. -/
def take (separators : Bytes) (s : Sharing) (x : Char) : Sharing :=
  let cuts := isSeparator separators x
  let soft := cuts && isSoft x
  if s.left = 0 then
    if soft then { s.push x with kept := s.kept.or (some s.current.length) }
    else { s.push x with kept := if cuts && s.soft then s.kept else none, soft := false }
  else if !cuts then { s.push x with soft := false }
  else if s.passing && soft then s
  else if s.passing && s.soft then { s with soft := false }
  else if s.current.isEmpty && soft then { s with passing := false, soft := false }
  else if s.left = 1 then { s.push x with left := 0, kept := some s.current.length, soft }
  else { s with
    finished := s.current.reverse :: s.finished
    current := []
    soft
    passing := true
    left := s.left - 1 }

def add (separators : Bytes) (s : Sharing) : Part → Sharing
  | .loose cs => cs.foldl (take separators) { s with soft := false, passing := false }
  | part => (part.marks.map (·.char)).foldl push s

def toFields (s : Sharing) : List Bytes :=
  let text := s.current.reverse
  if text.isEmpty then s.finished.reverse
  else (text.take (s.kept.getD text.length) :: s.finished).reverse

end Sharing

def shares (separators : Bytes) (count : Nat) (parts : List Part) : List Bytes :=
  (parts.foldl (Sharing.add separators) ⟨[], [], none, false, false, count⟩).toFields

end PushKeeper.Shell
