import PushKeeper.Decimal.Binary64

namespace PushKeeper.Toml

open Decimal (Binary64)

inductive TableKind
  | inline
  | implied
  | dotted
  | opened
  deriving DecidableEq

/-- A TOML value. Of a date or a time only the form is read. -/
inductive Value
  | string (s : String)
  | integer (n : Int)
  | floating (x : Binary64)
  | infinite (negative : Bool)
  | nan
  | boolean (b : Bool)
  | datetime
  | array (items : List Value)
  | table (kind : TableKind) (members : List (String × Value))
  | tables (elements : List (List (String × Value)))
  deriving Inhabited

abbrev Members := List (String × Value)

end PushKeeper.Toml
