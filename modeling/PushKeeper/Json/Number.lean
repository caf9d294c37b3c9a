import PushKeeper.Json.Fault

namespace PushKeeper.Json

open Decimal (Binary64)
open Text.Numeral (digit?)

def significandBound : Nat := Nat.pow 2 64

def addDigits (significand count : Nat) : List Char → Nat × Nat × List Char
  | [] => (significand, count, [])
  | c :: cs =>
    match digit? c with
    | some d =>
      if 10 * significand + d < significandBound then
        addDigits (10 * significand + d) (count + 1) cs
      else (significand, count, c :: cs)
    | none => (significand, count, c :: cs)

def dropDigits (count : Nat) : List Char → Nat × List Char
  | [] => (count, [])
  | c :: cs => if (digit? c).isSome then dropDigits (count + 1) cs else (count, c :: cs)

def digitsValue (value : Nat) : List Char → Nat × List Char
  | [] => (value, [])
  | c :: cs =>
    match digit? c with
    | some d => digitsValue (10 * value + d) cs
    | none => (value, c :: cs)

def startsDigit : List Char → Bool
  | c :: _ => (digit? c).isSome
  | [] => false

def greatestPower : Nat := 308

/-- Scales by a power of ten; nothing on overflow. A number that is far too small is divided down
in steps until it is zero. -/
def scale? (x : Binary64) (exponent : Int) : Nat → Option Binary64
  | 0 => some (.zero x.negative)
  | fuel + 1 =>
    if exponent.natAbs ≤ greatestPower then do
      let power ← Binary64.ofNat? (Nat.pow 10 exponent.natAbs)
      if 0 ≤ exponent then x.mul? power else x.div? power
    else if x.mantissa = 0 then some x
    else if 0 ≤ exponent then none
    else do
      let power ← Binary64.ofNat? (Nat.pow 10 greatestPower)
      scale? (← x.div? power) (exponent + greatestPower) fuel

def floatingValue (negative : Bool) (significand : Nat) (exponent : Int) : Except Fault Value :=
  match (Binary64.ofNat? significand).bind (scale? · exponent 4) with
  | some x => .ok (.floating { x with negative })
  | none => .error .malformed

def exponentPart : List Char → Except Fault (Int × List Char)
  | cs =>
    let (sign, cs) : Int × List Char := match cs with
      | '+' :: cs => (1, cs)
      | '-' :: cs => (-1, cs)
      | cs => (1, cs)
    if startsDigit cs then
      let (value, cs) := digitsValue 0 cs
      .ok (sign * (min value (Nat.pow 2 31) : Nat), cs)
    else .error .malformed

/-- A number without fraction and exponent. Minus zero is floating. -/
def wholeValue (negative : Bool) (significand : Nat) : Value :=
  if !negative then .integer significand
  else if 0 < significand && significand ≤ Nat.pow 2 63 then .integer (-significand)
  else
    match Binary64.ofNat? significand with
    | some x => .floating x.neg
    | none => .floating (.zero true)

def wholePart : List Char → Except Fault (Nat × List Char)
  | '0' :: cs => if startsDigit cs then .error .malformed else .ok (0, cs)
  | cs =>
    let (significand, count, cs) := addDigits 0 0 cs
    if count = 0 then .error .malformed else .ok (significand, cs)

def fractionPart (significand : Nat) : List Char → Except Fault (Option Nat × Nat × List Char)
  | '.' :: cs =>
    let (significand, count, cs) := addDigits significand 0 cs
    if count = 0 && !startsDigit cs then .error .malformed
    else .ok (some count, significand, (dropDigits 0 cs).2)
  | cs => .ok (none, significand, cs)

def powerPart : List Char → Except Fault (Option Int × List Char)
  | c :: cs => if c = 'e' || c = 'E' then do
      let (shift, cs) ← exponentPart cs
      return (some shift, cs)
    else .ok (none, c :: cs)
  | [] => .ok (none, [])

def numberValue (negative : Bool) (significand dropped : Nat) (fraction : Option Nat) (shift : Option Int) :
    Except Fault Value :=
  if fraction.isNone && shift.isNone && dropped = 0 then .ok (wholeValue negative significand)
  else floatingValue negative significand (dropped - fraction.getD 0 + shift.getD 0)

def number (negative : Bool) (cs : List Char) : Except Fault (Value × List Char) := do
  let (significand, cs) ← wholePart cs
  let (dropped, cs) := dropDigits 0 cs
  let (fraction, significand, cs) ← fractionPart significand cs
  let (shift, cs) ← powerPart cs
  return (← numberValue negative significand dropped fraction shift, cs)

end PushKeeper.Json
