import PushKeeper.Json.Text

namespace PushKeeper.Json

def integerChars (n : Int) : List Char :=
  if n < 0 then '-' :: PushKeeper.Text.Numeral.digits n.natAbs
  else PushKeeper.Text.Numeral.digits n.natAbs

def commas : List (List Char) → List Char
  | [] => []
  | [cs] => cs
  | cs :: rest => cs ++ ',' :: commas rest

mutual

def Value.compact : Value → List Char
  | .null => ['n', 'u', 'l', 'l']
  | .bool true => ['t', 'r', 'u', 'e']
  | .bool false => ['f', 'a', 'l', 's', 'e']
  | .integer n => integerChars n
  | .floating x => x.render.toList
  | .string s => Text.quote s
  | .array items => '[' :: commas (compactItems items) ++ [']']
  | .object members => '\x7b' :: commas (compactMembers members) ++ ['\x7d']

def compactItems : List Value → List (List Char)
  | [] => []
  | v :: vs => v.compact :: compactItems vs

def compactMembers : List (String × Value) → List (List Char)
  | [] => []
  | (name, v) :: ms => (Text.quote name ++ ':' :: v.compact) :: compactMembers ms

end

def Value.render (v : Value) : String :=
  String.ofList v.compact

end PushKeeper.Json
