import PushKeeper.Decimal.Shortest

namespace PushKeeper.Json

open Decimal (Binary64)

inductive Value
  | null
  | bool (b : Bool)
  | integer (n : Int)
  | floating (x : Binary64)
  | string (s : String)
  | array (items : List Value)
  | object (members : List (String × Value))
  deriving Inhabited

end PushKeeper.Json
