
namespace PushKeeper.Text.Utf8

def replacement : Char := '\uFFFD'

def start? (b : UInt8) : Option (Nat × Nat × UInt8 × UInt8) :=
  if 0xC2 ≤ b && b ≤ 0xDF then some (b.toNat - 0xC0, 1, 0x80, 0xBF)
  else if b == 0xE0 then some (0, 2, 0xA0, 0xBF)
  else if b == 0xED then some (0xD, 2, 0x80, 0x9F)
  else if 0xE1 ≤ b && b ≤ 0xEF then some (b.toNat - 0xE0, 2, 0x80, 0xBF)
  else if b == 0xF0 then some (0, 3, 0x90, 0xBF)
  else if 0xF1 ≤ b && b ≤ 0xF3 then some (b.toNat - 0xF0, 3, 0x80, 0xBF)
  else if b == 0xF4 then some (4, 3, 0x80, 0x8F)
  else none

/-- Decodes on from a character that still owes `owed` continuation bytes, the next of which must
lie between `low` and `high`; with nothing owed, from a character's start. -/
def decodeFrom (value owed : Nat) (low high : UInt8) : List UInt8 → List Char
  | [] => if owed = 0 then [] else [replacement]
  | b :: bs =>
    if owed ≠ 0 && low ≤ b && b ≤ high then
      let value := value * 64 + (b.toNat - 0x80)
      if owed = 1 then Char.ofNat value :: decodeFrom 0 0 0 0 bs
      else decodeFrom value (owed - 1) 0x80 0xBF bs
    else
      let cut := if owed = 0 then [] else [replacement]
      if b < 0x80 then cut ++ Char.ofNat b.toNat :: decodeFrom 0 0 0 0 bs
      else match start? b with
        | some (value, owed, low, high) => cut ++ decodeFrom value owed low high bs
        | none => cut ++ replacement :: decodeFrom 0 0 0 0 bs

def decodeLossy (bs : List UInt8) : String :=
  String.ofList (decodeFrom 0 0 0 0 bs)

end PushKeeper.Text.Utf8
