import PushKeeper.Decimal.Binary64
import PushKeeper.Text.Numeral

namespace PushKeeper.Decimal.Places

open Binary64 (roundHalfEven)

def pointed (places : Nat) (keep : Bool) (digits : List Char) : List Char :=
  let digits := List.replicate (places + 1 - digits.length) '0' ++ digits
  let whole := digits.take (digits.length - places)
  if places = 0 then (if keep then whole ++ ['.'] else whole)
  else whole ++ '.' :: digits.drop (digits.length - places)

def fixed (places : Nat) (keep : Bool) (num den : Nat) : List Char :=
  pointed places keep (Text.Numeral.digits (roundHalfEven (num * Nat.pow 10 places) den))

def leadingPower (num den : Nat) : Int :=
  if den ≤ num then ((Text.Numeral.digits (num / den)).length : Int) - 1
  else
    let k := (Text.Numeral.digits den).length - (Text.Numeral.digits num).length
    Int.negOfNat (if den ≤ num * Nat.pow 10 k then k else k + 1)

def significant (places : Nat) (num den : Nat) : Nat × Int :=
  if num = 0 then (0, 0)
  else
    let e := leadingPower num den
    let shift : Int := places - e
    let q := if 0 ≤ shift then roundHalfEven (num * Nat.pow 10 shift.toNat) den
      else roundHalfEven num (den * Nat.pow 10 (-shift).toNat)
    if Nat.pow 10 (places + 1) ≤ q then (q / 10, e + 1) else (q, e)

def power (mark : Char) (least : Nat) (e : Int) : List Char :=
  let digits := Text.Numeral.digits e.natAbs
  mark :: (if e < 0 then '-' else '+') :: List.replicate (least - digits.length) '0' ++ digits

def scientific (mark : Char) (places : Nat) (keep : Bool) (num den : Nat) : List Char :=
  let (q, e) := significant places num den
  pointed places keep (Text.Numeral.digits q) ++ power mark 2 e

def trimZeros (cs : List Char) : List Char :=
  if cs.contains '.' then
    ((cs.reverse.dropWhile (· = '0')).dropWhile (· = '.')).reverse
  else cs

def general (mark : Char) (count : Nat) (keep : Bool) (num den : Nat) : List Char :=
  let count := max count 1
  let (q, e) := significant (count - 1) num den
  let trim (cs : List Char) : List Char := if keep then cs else trimZeros cs
  if -4 ≤ e ∧ e < count then trim (fixed ((count : Int) - 1 - e).toNat keep num den)
  else trim (pointed (count - 1) keep (Text.Numeral.digits q)) ++ power mark 2 e

def mantissaPlaces : Nat := 13

def sixteenths (mark : Char) (places : Option Nat) (keep : Bool) (num den : Nat) : List Char :=
  let e : Int := if num = 0 then 0 else Binary64.exponentOf num den + 4 * mantissaPlaces
  let (n, d) := Binary64.scaled num den e
  let shown := places.getD mantissaPlaces
  let text := pointed shown true (Nat.toDigits 16 (roundHalfEven (n * Nat.pow 16 shown) d))
  let text := if places.isNone then (text.reverse.dropWhile (· = '0')).reverse else text
  let text := if keep then text else (text.reverse.dropWhile (· = '.')).reverse
  text ++ power mark 1 e

end PushKeeper.Decimal.Places
