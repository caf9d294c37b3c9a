import PushKeeper.Json.Value
import PushKeeper.Text.Quoted

namespace PushKeeper.Json

open Decimal (Binary64)

inductive Found
  | null
  | bool (b : Bool)
  | integer (n : Int)
  | floating (x : Binary64)
  | string (s : String)
  | sequence
  | map
  deriving DecidableEq

inductive Mismatch
  | missingField (name : String)
  | duplicateField (name : String)
  | unknownVariant (name : String) (expected : List String)
  | invalidType (found : Found) (expected : String)
  | invalidLength (length : Nat) (expected : String)
  deriving DecidableEq

inductive Fault
  | malformed
  | mismatch (m : Mismatch)
  deriving DecidableEq

def Value.found : Value → Found
  | .null => .null
  | .bool b => .bool b
  | .integer n => .integer n
  | .floating x => .floating x
  | .string s => .string s
  | .array _ => .sequence
  | .object _ => .map

def Found.describe : Found → String
  | .null => "null"
  | .bool b => s!"boolean `{b}`"
  | .integer n => s!"integer `{n}`"
  | .floating x => s!"floating point `{x.render}`"
  | .string s => s!"string {Text.Quoted.encode s}"
  | .sequence => "sequence"
  | .map => "map"

def describeNames : List String → String
  | [] => "there are no variants"
  | [a] => s!"expected `{a}`"
  | [a, b] => s!"expected `{a}` or `{b}`"
  | names => "expected one of " ++ ", ".intercalate (names.map fun name => s!"`{name}`")

def Mismatch.message : Mismatch → String
  | .missingField name => s!"missing field `{name}`"
  | .duplicateField name => s!"duplicate field `{name}`"
  | .unknownVariant name expected => s!"unknown variant `{name}`, {describeNames expected}"
  | .invalidType found expected => s!"invalid type: {found.describe}, expected {expected}"
  | .invalidLength length expected => s!"invalid length {length}, expected {expected}"

def Fault.message : Fault → String
  | .malformed => "malformed text"
  | .mismatch m => m.message

end PushKeeper.Json
