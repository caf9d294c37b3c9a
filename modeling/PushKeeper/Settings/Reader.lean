import PushKeeper.Settings.Basic
import PushKeeper.Toml.Table

namespace PushKeeper.Settings

open Toml (Value)

abbrev Given := String → Option Value

def areSingle (names : List String) (ms : Toml.Members) : Bool :=
  names.all fun name => (ms.filter (·.1 = name)).length ≤ 1

/-- The values given in a group with these names. A date has none of them. -/
def given? (names : List String) : Value → Option Given
  | .table _ ms => if areSingle names ms then some fun name => Toml.Members.get? ms name else none
  | .array items => some fun name => items[names.idxOf name]?
  | .tables elements => some fun name =>
    elements[names.idxOf name]?.map (Value.table .opened)
  | .datetime => some fun _ => none
  | _ => none

class Readable (α : Type) where
  ofValue? : Value → Option α

def field? {α : Type} [Readable α] (given : Given) (name : String) (usual : α) : Option α :=
  match given name with
  | some v => Readable.ofValue? v
  | none => some usual

instance : Readable Bool where
  ofValue?
    | .boolean b => some b
    | _ => none

instance : Readable String where
  ofValue?
    | .string s => some s
    | _ => none

instance : Readable Nat where
  ofValue?
    | .integer n => n.toNat?.filter (· < Nat.pow 2 64)
    | _ => none

def each? {α : Type} [Readable α] : List Value → Option (List α)
  | [] => some []
  | v :: vs => return (← Readable.ofValue? v) :: (← each? vs)

instance {α : Type} [Readable α] : Readable (List α) where
  ofValue?
    | .array items => each? items
    | .tables elements => each? (elements.map (Value.table .opened))
    | _ => none

instance : Readable Transport where
  ofValue? v := do
    let given ← given? ["enabled"] v
    return { enabled := ← field? given "enabled" usualSwitch }

instance : Readable Fetching where
  ofValue? v := do
    let given ←
      given? ["foreground_mandatory", "platform_requires_foreground", "cooldown_secs"] v
    return {
      foregroundMandatory := ← field? given "foreground_mandatory" false
      platformRequiresForeground := ← field? given "platform_requires_foreground" usualSwitch
      cooldownSeconds := ← field? given "cooldown_secs" usualCooldownSeconds }

instance : Readable Hooks where
  ofValue? v := do
    let given ← given? ["register", "enqueue_fetch", "legacy_pull"] v
    return {
      register := ← field? given "register" []
      enqueueFetch := ← field? given "enqueue_fetch" []
      legacyPull := ← field? given "legacy_pull" [] }

instance : Readable Storage where
  ofValue? v := do
    let given ← given? ["path"] v
    return { path := ← field? given "path" usualPath }

instance : Readable Settings where
  ofValue? v := do
    let given ← given? ["transport", "fetch", "hooks", "store"] v
    return {
      transport := ← field? given "transport" {}
      fetch := ← field? given "fetch" {}
      hooks := ← field? given "hooks" {}
      store := ← field? given "store" {} }

/-- The settings of a text, if it is a document to a reader of TOML and every value in it is of its type. -/
def ofText? (parse : String → Option Toml.Members) (text : String) : Option Settings := do
  Readable.ofValue? (Value.table .opened (← parse text))

end PushKeeper.Settings
