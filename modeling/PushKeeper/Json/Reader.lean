import PushKeeper.Json.Number
import PushKeeper.Json.Text

namespace PushKeeper.Json

abbrev Reader (α : Type) := List Char → Except Fault (α × List Char)

def isSpace (c : Char) : Bool :=
  c == ' ' || c == '\n' || c == '\t' || c == '\r'

def skipSpace (cs : List Char) : List Char :=
  cs.dropWhile isSpace

def afterWord : List Char → List Char → Except Fault (List Char)
  | [], cs => .ok cs
  | w :: ws, c :: cs => if w = c then afterWord ws cs else .error .malformed
  | _ :: _, [] => .error .malformed

def colon (cs : List Char) : Except Fault (List Char) :=
  match skipSpace cs with
  | ':' :: cs => .ok cs
  | _ => .error .malformed

def finish (cs : List Char) : Except Fault Unit :=
  if (skipSpace cs).isEmpty then .ok () else .error .malformed

def fullDepth : Nat := 128

def enter (depth : Nat) : Except Fault Nat :=
  if depth ≤ 1 then .error .malformed else .ok (depth - 1)

def more (close : Char) (cs : List Char) : Except Fault (Bool × List Char) :=
  match skipSpace cs with
  | ',' :: cs => .ok (true, cs)
  | c :: cs => if c = close then .ok (false, cs) else .error .malformed
  | [] => .error .malformed

def opened (close : Char) (cs : List Char) : Bool × List Char :=
  match skipSpace cs with
  | c :: rest => if c = close then (true, rest) else (false, c :: rest)
  | [] => (false, [])

def memberName (cs : List Char) : Except Fault (String × List Char) :=
  match skipSpace cs with
  | '"' :: cs => Text.string cs
  | _ => .error .malformed

mutual

def valueWith (fuel depth : Nat) (cs : List Char) : Except Fault (Value × List Char) :=
  match fuel with
  | 0 => .error .malformed
  | fuel + 1 =>
    match skipSpace cs with
    | 'n' :: cs => do return (.null, ← afterWord ['u', 'l', 'l'] cs)
    | 't' :: cs => do return (.bool true, ← afterWord ['r', 'u', 'e'] cs)
    | 'f' :: cs => do return (.bool false, ← afterWord ['a', 'l', 's', 'e'] cs)
    | '"' :: cs => do
      let (s, cs) ← Text.string cs
      return (.string s, cs)
    | '[' :: cs => do
      let depth ← enter depth
      match opened ']' cs with
      | (true, cs) => return (.array [], cs)
      | (false, cs) =>
        let (items, cs) ← itemsWith fuel depth cs
        return (.array items, cs)
    | '\x7b' :: cs => do
      let depth ← enter depth
      match opened '\x7d' cs with
      | (true, cs) => return (.object [], cs)
      | (false, cs) =>
        let (members, cs) ← membersWith fuel depth cs
        return (.object members, cs)
    | '-' :: cs => number true cs
    | cs => number false cs

def itemsWith (fuel depth : Nat) (cs : List Char) : Except Fault (List Value × List Char) :=
  match fuel with
  | 0 => .error .malformed
  | fuel + 1 => do
    let (v, cs) ← valueWith fuel depth cs
    match ← more ']' cs with
    | (true, cs) =>
      let (vs, cs) ← itemsWith fuel depth cs
      return (v :: vs, cs)
    | (false, cs) => return ([v], cs)

def membersWith (fuel depth : Nat) (cs : List Char) :
    Except Fault (List (String × Value) × List Char) :=
  match fuel with
  | 0 => .error .malformed
  | fuel + 1 => do
    let (name, cs) ← memberName cs
    let (v, cs) ← valueWith fuel depth (← colon cs)
    match ← more '\x7d' cs with
    | (true, cs) =>
      let (ms, cs) ← membersWith fuel depth cs
      return ((name, v) :: ms, cs)
    | (false, cs) => return ([(name, v)], cs)

end

/-- Any value, `depth` levels deep at most. A text is not longer than twice its characters and one:
every call but those for an item or a member takes a character. -/
def value (depth : Nat) : Reader Value :=
  fun cs => valueWith (2 * cs.length + 2) depth cs

def skipNumber (cs : List Char) : Except Fault (List Char) := do
  let cs ← match cs with
    | '0' :: cs => if startsDigit cs then .error .malformed else pure cs
    | cs => if startsDigit cs then pure (dropDigits 0 cs).2 else .error .malformed
  let cs ← match cs with
    | '.' :: cs => if startsDigit cs then pure (dropDigits 0 cs).2 else .error .malformed
    | cs => pure cs
  match cs with
  | c :: rest => if c = 'e' || c = 'E' then return (← exponentPart rest).2 else return c :: rest
  | [] => return []

mutual

def skipWith (fuel : Nat) (cs : List Char) : Except Fault (List Char) :=
  match fuel with
  | 0 => .error .malformed
  | fuel + 1 =>
    match skipSpace cs with
    | 'n' :: cs => afterWord ['u', 'l', 'l'] cs
    | 't' :: cs => afterWord ['r', 'u', 'e'] cs
    | 'f' :: cs => afterWord ['a', 'l', 's', 'e'] cs
    | '"' :: cs => Text.skipString cs
    | '[' :: cs =>
      match opened ']' cs with
      | (true, cs) => .ok cs
      | (false, cs) => skipItemsWith fuel cs
    | '\x7b' :: cs =>
      match opened '\x7d' cs with
      | (true, cs) => .ok cs
      | (false, cs) => skipMembersWith fuel cs
    | '-' :: cs => skipNumber cs
    | cs => skipNumber cs

def skipItemsWith (fuel : Nat) (cs : List Char) : Except Fault (List Char) :=
  match fuel with
  | 0 => .error .malformed
  | fuel + 1 => do
    match ← more ']' (← skipWith fuel cs) with
    | (true, cs) => skipItemsWith fuel cs
    | (false, cs) => return cs

def skipMembersWith (fuel : Nat) (cs : List Char) : Except Fault (List Char) :=
  match fuel with
  | 0 => .error .malformed
  | fuel + 1 => do
    let cs ← match skipSpace cs with
      | '"' :: cs => Text.skipString cs
      | _ => .error .malformed
    match ← more '\x7d' (← skipWith fuel (← colon cs)) with
    | (true, cs) => skipMembersWith fuel cs
    | (false, cs) => return cs

end

def skip (cs : List Char) : Except Fault (List Char) :=
  skipWith (2 * cs.length + 2) cs

/-- The fault of a value where something else was expected. Of a container only the bracket is
looked at. -/
def unexpected (expected : String) (cs : List Char) : Fault :=
  let wrong (found : Found) : Fault := .mismatch (.invalidType found expected)
  let after (found : Found) (rest : Except Fault (List Char)) : Fault :=
    match rest with
    | .ok _ => wrong found
    | .error fault => fault
  match skipSpace cs with
  | 'n' :: cs => after .null (afterWord ['u', 'l', 'l'] cs)
  | 't' :: cs => after (.bool true) (afterWord ['r', 'u', 'e'] cs)
  | 'f' :: cs => after (.bool false) (afterWord ['a', 'l', 's', 'e'] cs)
  | '[' :: _ => wrong .sequence
  | '\x7b' :: _ => wrong .map
  | '"' :: cs =>
    match Text.string cs with
    | .ok (s, _) => wrong (.string s)
    | .error fault => fault
  | '-' :: cs =>
    match number true cs with
    | .ok (v, _) => wrong v.found
    | .error fault => fault
  | cs =>
    match number false cs with
    | .ok (v, _) => wrong v.found
    | .error fault => fault

def readString (expected : String) : Reader String := fun cs =>
  match skipSpace cs with
  | '"' :: cs => Text.string cs
  | _ => .error (unexpected expected cs)

def aString : String := "a string"

def readVariant {α : Type} (table : List (String × α)) : Reader α := fun cs => do
  let (name, cs) ← readString "variant identifier" cs
  match table.lookup name with
  | some a => return (a, cs)
  | none => .error (.mismatch (.unknownVariant name (table.map Prod.fst)))

def readUnit (cs : List Char) : Except Fault (List Char) :=
  match skipSpace cs with
  | 'n' :: cs => afterWord ['u', 'l', 'l'] cs
  | _ => .error (unexpected "unit" cs)

def readChoice {α : Type} (table : List (String × α)) : Reader α := fun cs =>
  match skipSpace cs with
  | '"' :: _ => readVariant table cs
  | '\x7b' :: cs => do
    let (a, cs) ← readVariant table cs
    let cs ← readUnit (← colon cs)
    match skipSpace cs with
    | '\x7d' :: cs => return (a, cs)
    | _ => .error .malformed
  | _ => .error .malformed

def decode {α : Type} (reader : Reader α) (s : String) : Except Fault α := do
  let (a, cs) ← reader s.toList
  finish cs
  return a

end PushKeeper.Json
