import PushKeeper.Decimal.Places
import PushKeeper.Shell.Arithmetic

namespace PushKeeper.Shell

def octal? (c : Char) : Option Nat :=
  let n := c.toNat
  if 48 ≤ n ∧ n ≤ 55 then some (n - 48) else none

def octalByte (value : Nat) : Nat → List Char → Char × List Char
  | 0, cs => (Char.ofNat (value % 256), cs)
  | _, [] => (Char.ofNat (value % 256), [])
  | most + 1, c :: cs =>
    match octal? c with
    | some d => octalByte (8 * value + d) most cs
    | none => (Char.ofNat (value % 256), c :: cs)

def letter? (c : Char) : Option Char :=
  match c with
  | 'a' => some '\x07'
  | 'b' => some '\x08'
  | 'e' => some '\x1b'
  | 'f' => some '\x0c'
  | 'n' => some '\n'
  | 'r' => some '\r'
  | 't' => some '\t'
  | 'v' => some '\x0b'
  | '\\' => some '\\'
  | _ => none

def escaped (cs : List Char) : Char × List Char :=
  match cs with
  | [] => ('\\', [])
  | c :: rest =>
    if (octal? c).isSome then octalByte 0 3 (c :: rest)
    else
      match letter? c with
      | some d => (d, rest)
      | none => ('\\', c :: rest)

/-- A text with its backslashes read, and whether it was cut short by one. A number may have a zero in
front that does not count as one of its digits. -/
def unescape (fuel : Nat) (cs : Bytes) : Bytes × Bool :=
  match fuel with
  | 0 => ([], false)
  | fuel + 1 =>
    let after (c : Char) (cs : Bytes) : Bytes × Bool :=
      let (rest, cut) := unescape fuel cs
      (c :: rest, cut)
    match cs with
    | [] => ([], false)
    | '\\' :: 'c' :: _ => ([], true)
    | '\\' :: '0' :: cs => let (c, cs) := octalByte 0 3 cs; after c cs
    | '\\' :: cs => let (c, cs) := escaped cs; after c cs
    | c :: cs => after c cs

def echoText (words : List Bytes) : Bytes :=
  let (ending, words) : Bytes × List Bytes := match words with
    | ['-', 'n'] :: rest => ([], rest)
    | words => (['\n'], words)
  let text := joinWords words
  let (text, cut) := unescape (text.length + 1) text
  if cut then text else text ++ ending

inductive Misfit
  | noNumber
  | moreText
  | outOfRange
  deriving DecidableEq

def Misfit.message (argument : Bytes) : Misfit → Bytes
  | .noNumber => argument ++ bytesOf ": expected numeric value"
  | .moreText => argument ++ bytesOf ": not completely converted"
  | .outOfRange => argument ++ bytesOf ": Numerical result out of range"

def quotedByte? : Bytes → Option Nat
  | '"' :: rest => some ((rest.head?.map Char.toNat).getD 0)
  | '\'' :: rest => some ((rest.head?.map Char.toNat).getD 0)
  | _ => none

def numberOf (least most : Int) (argument : Bytes) : Int × Option Misfit :=
  match quotedByte? argument with
  | some n => (n, none)
  | none =>
    if argument.isEmpty then (0, none)
    else
      match Arithmetic.signed? Arithmetic.numeral? argument with
      | none => (0, some .noNumber)
      | some (n, rest) =>
        if n < least then (least, some .outOfRange)
        else if most < n then (most, some .outOfRange)
        else (n, if rest.isEmpty then none else some .moreText)

inductive Real
  | finite (negative : Bool) (num den : Nat)
  | infinite (negative : Bool)
  | noNumber
  deriving DecidableEq

def Real.ofQuotient (negative : Bool) (num den : Nat) : Real × Option Misfit :=
  match Decimal.Binary64.ofQuotient? negative num den with
  | none => (.infinite negative, some .outOfRange)
  | some x =>
    let (n, d) := x.toQuotient
    let loses := x.mantissa < Nat.pow 2 52 && n * den ≠ num * d
    (.finite negative n d, if loses then some .outOfRange else none)

def powerAt (mark : Char) (cs : List Char) : Int × List Char :=
  match cs with
  | [] => (0, [])
  | c :: rest =>
    if c.toLower ≠ mark then (0, c :: rest)
    else
      let (negative, digits) : Bool × List Char := match rest with
        | '-' :: ds => (true, ds)
        | '+' :: ds => (false, ds)
        | ds => (false, ds)
      if (digits.head?.map Char.isDigit).getD false then
        let (n, after) := Arithmetic.digitsFrom 10 0 digits
        (if negative then -(n : Int) else n, after)
      else (0, c :: rest)

def mantissa? (base : Nat) (cs : List Char) : Option (Nat × Nat × List Char) :=
  let (whole, rest) := Arithmetic.digitsFrom base 0 cs
  let count := cs.length - rest.length
  match rest with
  | '.' :: fraction =>
    let (all, after) := Arithmetic.digitsFrom base whole fraction
    let places := fraction.length - after.length
    if count + places = 0 then none else some (all, places, after)
  | _ => if count = 0 then none else some (whole, 0, rest)

def farPower : Nat := 5000

def unsignedReal? (negative : Bool) (cs : List Char) :
    Option (Real × Option Misfit × List Char) :=
  let scaled (base step : Nat) (m places : Nat) (e : Int) (rest : List Char) :
      Real × Option Misfit × List Char :=
    let e := max (-(farPower : Int) - cs.length) (min e (farPower + cs.length))
    let (r, misfit) :=
      if 0 ≤ e then Real.ofQuotient negative (m * Nat.pow base e.toNat) (Nat.pow step places)
      else Real.ofQuotient negative m (Nat.pow step places * Nat.pow base (-e).toNat)
    (r, misfit, rest)
  let lower := cs.map Char.toLower
  let decimal : Option (Real × Option Misfit × List Char) :=
    (mantissa? 10 cs).map fun (m, places, rest) =>
      let (e, rest) := powerAt 'e' rest
      scaled 10 10 m places e rest
  if "infinity".toList.isPrefixOf lower then some (.infinite negative, none, cs.drop 8)
  else if "inf".toList.isPrefixOf lower then some (.infinite negative, none, cs.drop 3)
  else if "nan".toList.isPrefixOf lower then some (.noNumber, none, cs.drop 3)
  else if "0x".toList.isPrefixOf lower then
    match mantissa? 16 (cs.drop 2) with
    | some (m, places, rest) =>
      let (e, rest) := powerAt 'p' rest
      some (scaled 2 16 m places e rest)
    | none => decimal
  else decimal

def realOf (argument : Bytes) : Real × Option Misfit :=
  match quotedByte? argument with
  | some n => Real.ofQuotient false n 1
  | none =>
    if argument.isEmpty then (.finite false 0 1, none)
    else
      let read := match Arithmetic.skip argument with
        | '-' :: cs => unsignedReal? true cs
        | '+' :: cs => unsignedReal? false cs
        | cs => unsignedReal? false cs
      match read with
      | none => (.finite false 0 1, some .noNumber)
      | some (r, some misfit, _) => (r, some misfit)
      | some (r, none, rest) => (r, if rest.isEmpty then none else some .moreText)

structure Layout where
  left : Bool
  zeros : Bool
  plus : Bool
  space : Bool
  alternate : Bool
  width : Nat
  precision : Option Nat

namespace Layout

def pad (l : Layout) (cs : Bytes) : Bytes :=
  let gap := List.replicate (l.width - cs.length) ' '
  if l.left then cs ++ gap else gap ++ cs

def sign (l : Layout) (negative : Bool) : Bytes :=
  if negative then ['-'] else if l.plus then ['+'] else if l.space then [' '] else []

def padNumber (l : Layout) (zeros : Bool) (sign digits : Bytes) : Bytes :=
  if zeros && l.zeros && !l.left then
    sign ++ List.replicate (l.width - sign.length - digits.length) '0' ++ digits
  else l.pad (sign ++ digits)

def whole (l : Layout) (sign : Bytes) (n : Nat) (digits : Bytes) : Bytes :=
  let digits := if n = 0 && l.precision = some 0 then [] else digits
  let digits := List.replicate (l.precision.getD 1 - digits.length) '0' ++ digits
  l.padNumber l.precision.isNone sign digits

def inBase (l : Layout) (base n : Nat) : Bytes :=
  let digits := Nat.toDigits base n
  let shows := l.alternate && n ≠ 0
  if shows && base = 16 then l.whole ['0', 'x'] n digits
  else if shows && base = 8 && l.precision.getD 0 ≤ digits.length then l.whole [] n ('0' :: digits)
  else l.whole [] n digits

def real (l : Layout) (front : Bytes) (write : Bool → Nat → Nat → Bytes) : Real → Bytes
  | .finite negative num den =>
    l.padNumber true (l.sign negative ++ front) (write l.alternate num den)
  | .infinite negative => l.pad (l.sign negative ++ "inf".toList)
  | .noNumber => l.pad (l.sign false ++ "nan".toList)

end Layout

structure Formatted where
  text : Bytes
  left : List Bytes
  used : Bool
  cut : Bool
  broken : Bool
  complaints : List Bytes

namespace Formatted

def put (f : Formatted) (cs : Bytes) : Formatted := { f with text := f.text ++ cs }

def argument (f : Formatted) : Bytes := f.left.headD []

def next (f : Formatted) : Formatted := { f with left := f.left.tail, used := true }

def complain (f : Formatted) (argument : Bytes) (misfit : Option Misfit) : Formatted :=
  { f with complaints := f.complaints ++ (misfit.map (·.message argument)).toList }

def spoil (f : Formatted) (complaint : Bytes) : Formatted :=
  { f with broken := true, complaints := f.complaints ++ [complaint] }

end Formatted

def leastWhole : Int := -(Int.pow 2 63)

def mostWhole : Int := Int.pow 2 63 - 1

def mostUnsigned : Int := Int.pow 2 64 - 1

def formatted? (l : Layout) (letter : Char) (f : Formatted) : Option Formatted :=
  let argument := f.argument
  let g := f.next
  let signed : Formatted :=
    let (n, misfit) := numberOf leastWhole mostWhole argument
    (g.complain argument misfit).put
      (l.whole (l.sign (n < 0)) n.natAbs (Text.Numeral.digits n.natAbs))
  let unsigned (base : Nat) : Formatted :=
    let (n, misfit) := numberOf (-mostUnsigned) mostUnsigned argument
    (g.complain argument misfit).put (l.inBase base (n % Int.pow 2 64).toNat)
  let real (front : Bytes) (write : Bool → Nat → Nat → Bytes) : Formatted :=
    let (r, misfit) := realOf argument
    (g.complain argument misfit).put (l.real front write r)
  let places := l.precision.getD 6
  let upper (h : Formatted) : Formatted :=
    { h with text := f.text ++ (h.text.drop f.text.length).map Char.toUpper }
  let cut (cs : Bytes) : Bytes := l.pad (cs.take (l.precision.getD cs.length))
  match letter with
  | 's' => some (g.put (cut argument))
  | 'b' =>
    let (cs, isCut) := unescape (argument.length + 1) argument
    some { g.put (cut cs) with cut := isCut }
  | 'c' => some (g.put (l.pad [argument.headD '\x00']))
  | 'd' => some signed
  | 'i' => some signed
  | 'u' => some (unsigned 10)
  | 'o' => some (unsigned 8)
  | 'x' => some (unsigned 16)
  | 'X' => some (upper (unsigned 16))
  | 'f' => some (real [] (Decimal.Places.fixed places))
  | 'F' => some (upper (real [] (Decimal.Places.fixed places)))
  | 'e' => some (real [] (Decimal.Places.scientific 'e' places))
  | 'E' => some (upper (real [] (Decimal.Places.scientific 'e' places)))
  | 'g' => some (real [] (Decimal.Places.general 'e' places))
  | 'G' => some (upper (real [] (Decimal.Places.general 'e' places)))
  | 'a' => some (real ['0', 'x'] (Decimal.Places.sixteenths 'p' l.precision))
  | 'A' => some (upper (real ['0', 'x'] (Decimal.Places.sixteenths 'p' l.precision)))
  | _ => none

def isMark (c : Char) : Bool := ['-', '+', ' ', '0', '#'].contains c

def amount (cs : List Char) (f : Formatted) : Int × Formatted × List Char :=
  match cs with
  | '*' :: cs =>
    let (n, misfit) := numberOf leastWhole mostWhole f.argument
    (n, f.next.complain f.argument misfit, cs)
  | cs =>
    let digits := cs.takeWhile Char.isDigit
    ((Text.Numeral.parse? (Nat.pow 2 31) (String.ofList digits)).getD 0, f, cs.dropWhile Char.isDigit)

def layoutOf (cs : List Char) (f : Formatted) : Layout × Formatted × List Char :=
  let marks := cs.takeWhile isMark
  let (width, f, cs) := amount (cs.dropWhile isMark) f
  let (precision, f, cs) : Option Nat × Formatted × List Char := match cs with
    | '.' :: cs =>
      let (n, f, cs) := amount cs f
      (if n < 0 then none else some n.toNat, f, cs)
    | cs => (none, f, cs)
  (⟨marks.contains '-' || width < 0, marks.contains '0', marks.contains '+', marks.contains ' ',
    marks.contains '#', width.natAbs, precision⟩, f, cs)

def formatOnce (fuel : Nat) (format : List Char) (f : Formatted) : Formatted :=
  match fuel with
  | 0 => f
  | fuel + 1 =>
    match format with
    | [] => f
    | '\\' :: cs => let (c, rest) := escaped cs; formatOnce fuel rest (f.put [c])
    | '%' :: '%' :: rest => formatOnce fuel rest (f.put ['%'])
    | '%' :: cs =>
      let (l, g, rest) := layoutOf cs f
      match rest with
      | [] => g.spoil (bytesOf "missing format character")
      | letter :: after =>
        match formatted? l letter g with
        | some h => if h.cut then h else formatOnce fuel after h
        | none =>
          g.spoil ('%' :: cs.take (cs.length - after.length) ++ bytesOf ": invalid directive")
    | c :: rest => formatOnce fuel rest (f.put [c])

def formatAll (rounds : Nat) (format : List Char) (f : Formatted) : Formatted :=
  match rounds with
  | 0 => f
  | rounds + 1 =>
    let f := formatOnce (format.length + 1) format { f with used := false }
    if f.cut || f.broken || f.left.isEmpty || !f.used then f else formatAll rounds format f

def printfText (format : Bytes) (arguments : List Bytes) : Formatted :=
  formatAll (arguments.length + 1) format ⟨[], arguments, false, false, false, []⟩

end PushKeeper.Shell
