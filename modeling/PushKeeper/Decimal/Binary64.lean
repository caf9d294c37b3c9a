
namespace PushKeeper.Decimal

/-- A finite value of the 64-bit binary format. -/
structure Binary64 where
  negative : Bool
  mantissa : Nat
  exponent : Int
  deriving DecidableEq

namespace Binary64

def leastExponent : Int := -1074

def greatestExponent : Int := 971

def zero (negative : Bool) : Binary64 := ⟨negative, 0, leastExponent⟩

def scaled (num den : Nat) (e : Int) : Nat × Nat :=
  if 0 ≤ e then (num, den * Nat.pow 2 e.toNat) else (num * Nat.pow 2 (-e).toNat, den)

def exponentOf (num den : Nat) : Int :=
  let guess : Int := (num.log2 : Int) - den.log2 - 52
  let (n, d) := scaled num den guess
  let e := if n / d < Nat.pow 2 52 then guess - 1 else if Nat.pow 2 53 ≤ n / d then guess + 1 else guess
  max e leastExponent

def roundHalfEven (n d : Nat) : Nat :=
  let q := n / d
  let twice := 2 * (n % d)
  if d < twice || (twice == d && q % 2 == 1) then q + 1 else q

def ofQuotient? (negative : Bool) (num den : Nat) : Option Binary64 :=
  if num = 0 then some (zero negative) else
    let e := exponentOf num den
    let (n, d) := scaled num den e
    let q := roundHalfEven n d
    let (m, e) := if q = Nat.pow 2 53 then (Nat.pow 2 52, e + 1) else (q, e)
    if greatestExponent < e then none else some ⟨negative, m, e⟩

def toQuotient (x : Binary64) : Nat × Nat :=
  if 0 ≤ x.exponent then (x.mantissa * Nat.pow 2 x.exponent.toNat, 1)
  else (x.mantissa, Nat.pow 2 (-x.exponent).toNat)

def ofNat? (n : Nat) : Option Binary64 :=
  ofQuotient? false n 1

def mul? (x y : Binary64) : Option Binary64 :=
  let (a, b) := x.toQuotient
  let (c, d) := y.toQuotient
  ofQuotient? (x.negative != y.negative) (a * c) (b * d)

def div? (x y : Binary64) : Option Binary64 :=
  let (a, b) := x.toQuotient
  let (c, d) := y.toQuotient
  ofQuotient? (x.negative != y.negative) (a * d) (b * c)

def neg (x : Binary64) : Binary64 :=
  { x with negative := !x.negative }

end Binary64

end PushKeeper.Decimal
