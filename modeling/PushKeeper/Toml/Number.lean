import PushKeeper.Toml.Value
import PushKeeper.Text.Numeral

namespace PushKeeper.Toml

open Decimal (Binary64)
open Text.Numeral (digit?)

def digitIn? (base : Nat) (c : Char) : Option Nat :=
  let n := c.toNat
  let d :=
    if 48 ≤ n ∧ n ≤ 57 then n - 48
    else if 65 ≤ n ∧ n ≤ 70 then n - 55
    else if 97 ≤ n ∧ n ≤ 102 then n - 87
    else base
  if d < base then some d else none

def moreDigits (base : Nat) : List Char → List Nat × List Char
  | [] => ([], [])
  | ['_'] => ([], ['_'])
  | '_' :: c :: cs =>
    match digitIn? base c with
    | some d => let (ds, rest) := moreDigits base cs; (d :: ds, rest)
    | none => ([], '_' :: c :: cs)
  | c :: cs =>
    match digitIn? base c with
    | some d => let (ds, rest) := moreDigits base cs; (d :: ds, rest)
    | none => ([], c :: cs)

def digits? (base : Nat) : List Char → Option (List Nat × List Char)
  | [] => none
  | c :: cs => do
    let d ← digitIn? base c
    let (ds, rest) := moreDigits base cs
    return (d :: ds, rest)

def valueOf (base : Nat) (ds : List Nat) : Nat :=
  ds.foldl (fun n d => base * n + d) 0

def sign : List Char → Bool × List Char
  | '+' :: cs => (false, cs)
  | '-' :: cs => (true, cs)
  | cs => (false, cs)

def whole? : List Char → Option (List Nat × List Char)
  | '0' :: cs => some ([0], cs)
  | cs => digits? 10 cs

def fits? (n : Int) : Option Value :=
  if -(Int.pow 2 63) ≤ n ∧ n < Int.pow 2 63 then some (.integer n) else none

def basedInteger (base : Nat) (cs : List Char) : Option (Value × List Char) := do
  let (ds, cs) ← digits? base cs
  return (← fits? (valueOf base ds), cs)

def integer : List Char → Option (Value × List Char)
  | '0' :: 'x' :: cs => basedInteger 16 cs
  | '0' :: 'o' :: cs => basedInteger 8 cs
  | '0' :: 'b' :: cs => basedInteger 2 cs
  | cs => do
    let (negative, cs) := sign cs
    let (ds, cs) ← whole? cs
    let n : Int := valueOf 10 ds
    return (← fits? (if negative then -n else n), cs)

def exponentPart? : List Char → Option (Int × List Char)
  | c :: cs =>
    if c = 'e' || c = 'E' then do
      let (negative, cs) := sign cs
      let (ds, cs) ← digits? 10 cs
      let n : Int := valueOf 10 ds
      return (if negative then -n else n, cs)
    else none
  | [] => none

def farExponent : Int := 400

def decimalValue (negative : Bool) (ds : List Nat) (exponent : Int) : Option Value :=
  let n := valueOf 10 ds
  if n = 0 || exponent + ds.length < -farExponent then some (.floating (.zero negative))
  else
    let x := if farExponent ≤ exponent then none
      else if 0 ≤ exponent then Binary64.ofQuotient? negative (n * Nat.pow 10 exponent.toNat) 1
      else Binary64.ofQuotient? negative n (Nat.pow 10 (-exponent).toNat)
    match x with
    | some x => some (.floating x)
    | none => if negative then some (.infinite true) else none

def decimal (cs : List Char) : Option (Value × List Char) := do
  let (negative, cs) := sign cs
  let (front, cs) ← whole? cs
  match cs with
  | '.' :: cs =>
    let (back, cs) ← digits? 10 cs
    let (shift, cs) := (exponentPart? cs).getD (0, cs)
    return (← decimalValue negative (front ++ back) (shift - back.length), cs)
  | cs =>
    let (shift, cs) ← exponentPart? cs
    return (← decimalValue negative front shift, cs)

def special (cs : List Char) : Option (Value × List Char) :=
  match sign cs with
  | (negative, 'i' :: 'n' :: 'f' :: cs) => some (.infinite negative, cs)
  | (_, 'n' :: 'a' :: 'n' :: cs) => some (.nan, cs)
  | _ => none

def two? (least greatest : Nat) : List Char → Option (Nat × List Char)
  | a :: b :: cs => do
    let n := 10 * (← digit? a) + (← digit? b)
    if least ≤ n ∧ n ≤ greatest then some (n, cs) else none
  | _ => none

def daysOf (year month : Nat) : Nat :=
  if month = 2 then
    if year % 4 = 0 ∧ (year % 100 ≠ 0 ∨ year % 400 = 0) then 29 else 28
  else if month = 4 ∨ month = 6 ∨ month = 9 ∨ month = 11 then 30
  else 31

def date? : List Char → Option (List Char)
  | a :: b :: c :: d :: '-' :: cs => do
    let year := 1000 * (← digit? a) + 100 * (← digit? b) + 10 * (← digit? c) + (← digit? d)
    match ← two? 1 12 cs with
    | (month, '-' :: cs) =>
      let (_, cs) ← two? 1 (daysOf year month) cs
      return cs
    | _ => none
  | _ => none

def fraction : List Char → Option (List Char)
  | '.' :: c :: cs =>
    if (digit? c).isSome then some (cs.dropWhile fun c => (digit? c).isSome) else none
  | '.' :: [] => none
  | cs => some cs

def time? (cs : List Char) : Option (List Char) := do
  match ← two? 0 23 cs with
  | (_, ':' :: cs) =>
    match ← two? 0 59 cs with
    | (_, ':' :: cs) =>
      let (_, cs) ← two? 0 60 cs
      fraction cs
    | _ => none
  | _ => none

def offset? : List Char → Option (List Char)
  | 'Z' :: cs => some cs
  | 'z' :: cs => some cs
  | c :: cs =>
    if c = '+' || c = '-' then do
      match ← two? 0 23 cs with
      | (_, ':' :: cs) => return (← two? 0 59 cs).2
      | _ => none
    else some (c :: cs)
  | [] => some []

def separates (c : Char) : Bool :=
  c == 'T' || c == 't' || c == ' '

def datetime (cs : List Char) : Option (Value × List Char) :=
  match date? cs with
  | some rest =>
    let after : Option (List Char) := match rest with
      | c :: cs => if separates c then (time? cs).bind offset? else none
      | [] => none
    some (.datetime, after.getD rest)
  | none => (time? cs).map (.datetime, ·)

def number (cs : List Char) : Option (Value × List Char) :=
  datetime cs <|> decimal cs <|> special cs <|> integer cs

end PushKeeper.Toml
