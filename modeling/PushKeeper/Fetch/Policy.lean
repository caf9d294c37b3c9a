import PushKeeper.Fetch.Strategy
import PushKeeper.Text.Numeral

namespace PushKeeper.Fetch

/-- Rules for the choice of a strategy. The cooldown is in milliseconds. -/
structure Policy where
  foregroundMandatory : Bool
  platformRequiresForeground : Bool
  cooldown : Nat
  deriving DecidableEq

namespace Policy

def defaultCooldownSeconds : Nat := 180

def standard : Policy := ⟨false, true, 1000 * defaultCooldownSeconds⟩

instance : Inhabited Policy := ⟨standard⟩

def cooldownSeconds (p : Policy) : Nat :=
  p.cooldown / 1000

def select (p : Policy) (elapsed : Nat) : Strategy :=
  if p.foregroundMandatory || (p.platformRequiresForeground && p.cooldown < elapsed) then
    .foreground
  else .background

def trimZeros (digits : List Char) : List Char :=
  (digits.reverse.dropWhile (· = '0')).reverse

def threeDigits (n : Nat) : List Char :=
  [Text.Numeral.digitChar (n / 100 % 10), Text.Numeral.digitChar (n / 10 % 10),
    Text.Numeral.digitChar (n % 10)]

def showDuration (ms : Nat) : String :=
  if ms = 0 then "0ns"
  else if ms < 1000 then Text.Numeral.render ms ++ "ms"
  else
    match trimZeros (threeDigits (ms % 1000)) with
    | [] => Text.Numeral.render (ms / 1000) ++ "s"
    | fraction => Text.Numeral.render (ms / 1000) ++ "." ++ String.ofList fraction ++ "s"

def describe (p : Policy) : String :=
  "FetchPolicy \x7b foreground_mandatory: " ++ toString p.foregroundMandatory ++
    ", platform_requires_foreground: " ++ toString p.platformRequiresForeground ++
    ", cooldown: " ++ showDuration p.cooldown ++ " \x7d"

end Policy

end PushKeeper.Fetch
