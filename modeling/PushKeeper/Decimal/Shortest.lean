import PushKeeper.Decimal.Binary64
import PushKeeper.Text.Numeral

namespace PushKeeper.Decimal

structure Digits where
  digits : Nat
  unit : Int
  deriving DecidableEq

def timesTen (num den : Nat) (e : Int) : Nat × Nat :=
  if 0 ≤ e then (num * Nat.pow 10 e.toNat, den) else (num, den * Nat.pow 10 (-e).toNat)

/-- The reals that round to a positive value: both ends over one denominator, and whether the ends
belong to them. -/
structure Interval where
  low : Nat
  high : Nat
  den : Nat
  closed : Bool

/-- The reals that round to `m · 2 ^ e`. Below a power of two the neighbour is half as far. -/
def Binary64.interval (x : Binary64) : Interval :=
  let below := if x.mantissa = Nat.pow 2 52 && Binary64.leastExponent < x.exponent then 1 else 2
  let up := if 2 ≤ x.exponent then Nat.pow 2 (x.exponent - 2).toNat else 1
  let down := if 2 ≤ x.exponent then 1 else Nat.pow 2 (2 - x.exponent).toNat
  ⟨(4 * x.mantissa - below) * up, (4 * x.mantissa + 2) * up, down, x.mantissa % 2 == 0⟩

def Interval.has (i : Interval) (d : Digits) : Bool :=
  let (n, k) := timesTen d.digits 1 d.unit
  let a := i.low * k
  let b := n * i.den
  let c := i.high * k
  if i.closed then a ≤ b && b ≤ c else a < b && b < c

def digitCount (n : Nat) : Nat :=
  (Text.Numeral.digits n).length

def leadingPlace (num den : Nat) : Int :=
  let guess : Int := (digitCount num : Int) - digitCount den
  let (n, d) := timesTen num den (-guess)
  if d ≤ n then guess else guess - 1

def Binary64.withDigits? (x : Binary64) (count : Nat) : Option Digits :=
  let (num, den) := x.toQuotient
  let unit := leadingPlace num den - (count - 1 : Nat)
  let (n, d) := timesTen num den (-unit)
  let lower : Digits := ⟨n / d, unit⟩
  let upper : Digits := ⟨n / d + 1, unit⟩
  let nearer := if 2 * (n % d) < d || (2 * (n % d) == d && (n / d) % 2 == 0) then [lower, upper]
    else [upper, lower]
  nearer.find? x.interval.has

/-- The shortest decimal that reads back as a value that is not zero. Seventeen digits always do. -/
def Binary64.shortest (x : Binary64) : Digits :=
  let (num, den) := x.toQuotient
  ((List.range 17).findSome? fun i => x.withDigits? (i + 1)).getD ⟨num / den, 0⟩

def Digits.trimZeros (d : Digits) : Nat → Digits
  | 0 => d
  | fuel + 1 =>
    if d.digits % 10 = 0 && d.digits ≠ 0 then trimZeros ⟨d.digits / 10, d.unit + 1⟩ fuel else d

/-- How numbers are laid out: positional while the leading digit's place lies in a range, else with
an exponent that always has a sign. -/
structure Layout where
  leastPlace : Int
  greatestPlace : Int

def pointed : List Char → List Char
  | [] => []
  | [c] => [c]
  | c :: cs => c :: '.' :: cs

def Layout.render (layout : Layout) (d : Digits) : List Char :=
  let ds := Text.Numeral.digits d.digits
  let place : Int := d.unit + ds.length - 1
  if layout.leastPlace ≤ place ∧ place ≤ layout.greatestPlace then
    if 0 ≤ d.unit then ds ++ List.replicate d.unit.toNat '0' ++ ['.', '0']
    else if 0 ≤ place then
      ds.take (place.toNat + 1) ++ '.' :: ds.drop (place.toNat + 1)
    else ['0', '.'] ++ List.replicate (-place - 1).toNat '0' ++ ds
  else
    pointed ds ++ ['e', if place < 0 then '-' else '+'] ++ Text.Numeral.digits place.natAbs

def shownLayout : Layout := ⟨-5, 15⟩

def Binary64.render (x : Binary64) : String :=
  let sign := if x.negative then ['-'] else []
  let body := if x.mantissa = 0 then ['0', '.', '0']
    else shownLayout.render (x.shortest.trimZeros 17)
  String.ofList (sign ++ body)

end PushKeeper.Decimal
