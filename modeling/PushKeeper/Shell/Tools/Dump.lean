import PushKeeper.Shell.Output
import PushKeeper.Shell.Tools.Basic

namespace PushKeeper.Shell.Tools

namespace Dump

inductive Form
  | number (base : Nat)
  | signed
  | character
  | name
  deriving DecidableEq

structure Style where
  form : Form
  size : Nat

def digitsOf (base size : Nat) : Nat := (Nat.toDigits base (Nat.pow 256 size - 1)).length

def Style.width (s : Style) : Nat :=
  match s.form with
  | .number base => digitsOf base s.size
  | .signed => (Text.Numeral.digits (Nat.pow 256 s.size / 2)).length + 1
  | .character => 3
  | .name => 3

def value : Bytes → Nat
  | [] => 0
  | c :: cs => c.toNat + 256 * value cs

def names : List String :=
  ["nul", "soh", "stx", "etx", "eot", "enq", "ack", "bel", "bs", "ht", "nl", "vt", "ff", "cr", "so", "si",
    "dle", "dc1", "dc2", "dc3", "dc4", "nak", "syn", "etb", "can", "em", "sub", "esc", "fs", "gs", "rs",
    "us", "sp"]

def characterText (c : Char) : Bytes :=
  if c = '\x00' then ['\\', '0']
  else if isHidden c then
    let text := unhidden c
    if text.length = 2 then text else text.drop 1
  else [c]

def nameText (c : Char) : Bytes :=
  let n := c.toNat % 128
  if n = 127 then "del".toList else (names[n]?.map String.toList).getD [Char.ofNat n]

def Style.show (s : Style) (group : Bytes) : Bytes :=
  let n := value group
  match s.form with
  | .number base =>
    let digits := Nat.toDigits base n
    if base = 10 then digits else digits.leftpad (s.width) '0'
  | .signed => Arithmetic.render ((n : Int).bmod (Nat.pow 256 s.size))
  | .character => characterText (group.headD '\x00')
  | .name => nameText (group.headD '\x00')

def perLine : Nat := 16

def groups (size : Nat) : Nat → Bytes → List Bytes
  | 0, _ => []
  | count + 1, cs => if cs.isEmpty then [] else cs.take size :: groups size count (cs.drop size)

def Style.line (s : Style) (cs : Bytes) : Bytes :=
  (groups s.size (cs.length + 1) cs).flatMap fun group => ' ' :: (s.show group).leftpad s.width ' '

def address (base : Option Nat) (place : Nat) : Bytes :=
  match base with
  | none => []
  | some base => (Nat.toDigits base place).leftpad (if base = 16 then 6 else 7) '0'

def lines (base : Option Nat) (styles : List Style) (whole : Bool) :
    Nat → Option Bytes → Bool → List Bytes → List Bytes
  | _, _, _, [] => []
  | place, before, starred, row :: rows =>
    let goOn (starred : Bool) : List Bytes :=
      lines base styles whole (place + row.length) (some row) starred rows
    if !whole && before = some row && row.length = perLine then
      if starred then goOn true else ['*'] :: goOn true
    else
      let front := address base place
      let texts := styles.map fun s => s.line row
      let rest := texts.tail.map (List.replicate front.length ' ' ++ ·)
      (front ++ texts.headD []) :: (rest ++ goOn false)

def sizeOf? (word : Bytes) (usual : Nat) : Option Nat :=
  match word with
  | [] => some usual
  | ['C'] => some 1
  | ['S'] => some 2
  | ['I'] => some 4
  | ['L'] => some 8
  | _ => (wholeNumber? word).filter [1, 2, 4, 8].contains

def styleOf? (word : Bytes) : Option Style :=
  match word with
  | 'c' :: _ => some ⟨.character, 1⟩
  | 'a' :: _ => some ⟨.name, 1⟩
  | 'x' :: size => (sizeOf? size 4).map (⟨.number 16, ·⟩)
  | 'o' :: size => (sizeOf? size 4).map (⟨.number 8, ·⟩)
  | 'u' :: size => (sizeOf? size 4).map (⟨.number 10, ·⟩)
  | 'd' :: size => (sizeOf? size 4).map (⟨.signed, ·⟩)
  | _ => none

def styleOfOption? : Char × Bytes → Option Style
  | ('t', word) => styleOf? word
  | ('c', _) => some ⟨.character, 1⟩
  | ('a', _) => some ⟨.name, 1⟩
  | ('b', _) => some ⟨.number 8, 1⟩
  | ('x', _) => some ⟨.number 16, 2⟩
  | ('o', _) => some ⟨.number 8, 2⟩
  | ('d', _) => some ⟨.number 10, 2⟩
  | ('s', _) => some ⟨.signed, 2⟩
  | ('i', _) => some ⟨.signed, 4⟩
  | _ => none

def baseOf (word : Bytes) : Option Nat :=
  match word with
  | 'n' :: _ => none
  | 'd' :: _ => some 10
  | 'x' :: _ => some 16
  | _ => some 8

end Dump

open Dump in
def dump : Tool := fun _ name arguments => do
  let (options, files) ← optionsIn name 1 true "cabxodsiv" "AtNj" arguments
  if let some (_, word) := options.find? fun o => o.1 = 't' && (styleOf? o.2).isNone then
    report name (bytesOf "invalid type string " ++ cited word)
    return 1
  let styles := options.filterMap styleOfOption?
  let styles := if styles.isEmpty then [⟨.number 8, 2⟩] else styles
  let amount (c : Char) : Option Nat := (wordWith? options c).bind wholeNumber?
  let base := ((wordWith? options 'A').map baseOf).getD (some 8)
  let skipped := (amount 'j').getD 0
  let (texts, complete) ← readInputs name .plain files
  let text := (texts.flatMap (·.2)).drop skipped
  let text := text.take ((amount 'N').getD text.length)
  giveLines (lines base styles (hasLetter options 'v') skipped none false
    (groups perLine (text.length + 1) text))
  if base.isSome then giveLines [address base (skipped + text.length)]
  return statusOf complete

end PushKeeper.Shell.Tools
