import PushKeeper.Shell.Tools.Basic

namespace PushKeeper.Shell.Tools

namespace Sorting

def isGap (c : Char) : Bool := c = ' ' || c = '\t' || c = '\n'

structure Spot where
  field : Nat
  char : Nat

structure Key where
  first : Spot
  last : Option Spot
  letters : List Char

def spotOf? (usual : Nat) (cs : Bytes) : Option (Spot × List Char × Bytes) :=
  let digits := cs.takeWhile Char.isDigit
  let rest := cs.drop digits.length
  (wholeNumber? digits).bind fun field =>
    let (char, rest) : Option Nat × Bytes := match rest with
      | '.' :: more =>
        let digits := more.takeWhile Char.isDigit
        (wholeNumber? digits, more.drop digits.length)
      | rest => (some usual, rest)
    let letters := rest.takeWhile ['n', 'r', 'f', 'b', 'd', 'i', 'g', 'h', 'V', 'M'].contains
    char.map fun char => (⟨field, char⟩, letters, rest.drop letters.length)

def keyOf? (word : Bytes) : Option Key := do
  let (first, letters, rest) ← spotOf? 1 word
  if first.field = 0 || first.char = 0 then none
  else
    match rest with
    | [] => some ⟨first, none, letters⟩
    | ',' :: rest => do
      let (last, more, rest) ← spotOf? 0 rest
      if rest.isEmpty && last.field ≠ 0 then some ⟨first, some last, letters ++ more⟩ else none
    | _ => none

def fieldsFrom (mark : Option Char) : Nat → Nat → Bytes → List (Nat × Nat)
  | 0, _, _ => []
  | fuel + 1, place, cs =>
    match mark with
    | some m =>
      let field := cs.takeWhile (· ≠ m)
      let rest := cs.drop field.length
      (place, place + field.length) ::
        if rest.isEmpty then [] else fieldsFrom mark fuel (place + field.length + 1) (rest.drop 1)
    | none =>
      if cs.isEmpty then []
      else
        let front := (cs.takeWhile isGap).length
        let length := front + ((cs.drop front).takeWhile (!isGap ·)).length
        (place, place + length) :: fieldsFrom mark fuel (place + length) (cs.drop length)

def Key.text (k : Key) (mark : Option Char) (skips : Bool) (line : Bytes) : Bytes :=
  let fields := fieldsFrom mark (line.length + 1) 0 line
  let startOf (n : Nat) : Nat :=
    match fields[n - 1]? with
    | some (start, _) =>
      if skips then start + ((line.drop start).takeWhile isGap).length else start
    | none => line.length
  let first := startOf k.first.field + (k.first.char - 1)
  let last := match k.last with
    | none => line.length
    | some spot =>
      if spot.char = 0 then ((fields[spot.field - 1]?).map (·.2)).getD line.length
      else startOf spot.field + spot.char
  (line.take last).drop first

def numberAt (cs : Bytes) : Int × Nat :=
  let cs := cs.dropWhile isGap
  let (negative, cs) : Bool × Bytes := match cs with
    | '-' :: rest => (true, rest)
    | cs => (false, cs)
  let whole := cs.takeWhile Char.isDigit
  let fraction : Bytes := match cs.drop whole.length with
    | '.' :: rest => rest.takeWhile Char.isDigit
    | _ => []
  let n : Int := ((String.toNat? (String.ofList (whole ++ fraction))).getD 0 : Nat)
  (if negative then -n else n, fraction.length)

def compareBy (letters : List Char) (a b : Bytes) : Ordering :=
  let folded (cs : Bytes) : Bytes :=
    let cs := if letters.contains 'f' then cs.map Char.toUpper else cs
    if letters.contains 'd' then cs.filter fun c => c.isAlphanum || isGap c else cs
  let order := if letters.contains 'n' || letters.contains 'g' then
      let (m, p) := numberAt a
      let (n, q) := numberAt b
      compare (m * Nat.pow 10 q) (n * Nat.pow 10 p)
    else
      let a := folded a
      let b := folded b
      if a = b then .eq else if a < b then .lt else .gt
  if letters.contains 'r' then order.swap else order

structure Plan where
  letters : List Char
  keys : List Key
  mark : Option Char

def Plan.compare (p : Plan) (a b : Bytes) : Ordering :=
  let byKey (k : Key) : Ordering :=
    let letters := if k.letters.isEmpty then p.letters else k.letters
    let text := k.text p.mark (letters.contains 'b')
    compareBy letters (text a) (text b)
  if p.keys.isEmpty then compareBy p.letters a b
  else p.keys.foldl (fun order k => order.then (byKey k)) .eq

def Plan.compareAll (p : Plan) (a b : Bytes) : Ordering :=
  let isStable := p.letters.contains 's' || p.letters.contains 'u'
  (p.compare a b).then <|
    if isStable then .eq else compareBy (p.letters.filter (· = 'r')) a b

def Plan.distinct (p : Plan) : List Bytes → List Bytes
  | a :: b :: rest =>
    if p.compare a b = .eq then p.distinct (a :: rest) else a :: p.distinct (b :: rest)
  | lines => lines
termination_by lines => lines.length

def Plan.disorder? (p : Plan) : Nat → List Bytes → Option (Nat × Bytes)
  | number, a :: b :: rest =>
    let order := p.compareAll a b
    if order = .gt || (order = .eq && p.letters.contains 'u') then some (number + 1, b)
    else p.disorder? (number + 1) (b :: rest)
  | _, _ => none

end Sorting

open Sorting in
def sort : Tool := fun _ name arguments => do
  let names := [("unique", 'u'), ("reverse", 'r'), ("numeric-sort", 'n'), ("key", 'k'),
    ("field-separator", 't'), ("output", 'o'), ("ignore-case", 'f'), ("check", 'c'), ("stable", 's')]
  let (options, files) ← optionsIn name 2 true "unrfbdigcCsz" "kto" (short names arguments)
  let has (c : Char) : Bool := hasLetter options c
  let words := (options.filter (·.1 = 'k')).map (·.2)
  if let some word := words.find? fun word => (keyOf? word).isNone then
    report name (bytesOf "invalid number at field start: invalid count at start of " ++ cited word)
    return 2
  let plan : Plan :=
    ⟨options.map (·.1), words.filterMap keyOf?, (wordWith? options 't').bind (·.head?)⟩
  let (texts, complete) ← readInputs name
    ⟨(bytesOf "cannot read: " ++ sheltered ·), (bytesOf "read failed: " ++ sheltered ·)⟩ files
  if !complete then return 2
  let lines := texts.flatMap fun (_, text) => plainLines text
  if has 'c' || has 'C' then
    match plan.disorder? 1 lines with
    | none => return 0
    | some (number, line) =>
      unless has 'C' do
        report name (files.headD ['-'] ++ ':' :: Text.Numeral.digits number
          ++ bytesOf ": disorder: " ++ line)
      return 1
  let ordered := lines.mergeSort fun a b => plan.compareAll a b ≠ .gt
  let ordered := if has 'u' then plan.distinct ordered else ordered
  match wordWith? options 'o' with
  | none => giveLines ordered
  | some file =>
    let text := packed (ordered.flatMap (· ++ ['\n']))
    match (← get).tree.write (textOf file) text with
    | .ok tree => modify fun s => { s with tree }
    | .error fault =>
      reportFault name (bytesOf "open failed: " ++ sheltered file) fault
      return 2
  return 0

end PushKeeper.Shell.Tools
