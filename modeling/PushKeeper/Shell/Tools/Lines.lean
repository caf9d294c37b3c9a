import PushKeeper.Shell.Arithmetic
import PushKeeper.Shell.Output
import PushKeeper.Shell.Pattern
import PushKeeper.Shell.Tools.Basic

namespace PushKeeper.Shell.Tools

def concatenate : Tool := fun _ name arguments => do
  let (options, files) ← optionsIn name 1 true "nu" "" (short [("number", 'n')] arguments)
  let mut good := true
  let mut count := 0
  for file in if files.isEmpty then [['-']] else files do
    match ← readInput file with
    | .ok text =>
      if hasLetter options 'n' then
        for line in linesOf text do
          count := count + 1
          let digits := Text.Numeral.digits count
          give (List.replicate (6 - digits.length) ' ' ++ digits ++ '\t' :: line)
      else give text
    | .error fault =>
      reportFault name (sheltered file) fault
      good := false
  return statusOf good

structure Extent where
  inBytes : Bool
  inverse : Bool
  amount : Nat

def Extent.ofWord? (inBytes : Bool) (sign : Char) (word : Bytes) : Option Extent :=
  let inverse := word.head? = some sign
  let digits := if inverse || word.head? = some '-' then word.drop 1 else word
  (wholeNumber? digits).map fun amount => ⟨inBytes, inverse, amount⟩

def Extent.units (e : Extent) (text : Bytes) : List Bytes :=
  if e.inBytes then text.map ([·]) else linesOf text

def extentOf (name : Bytes) (sign : Char) (arguments : List Bytes) :
    Run (Extent × Option Bool × List Bytes) := do
  let arguments := match arguments with
    | ('-' :: c :: cs) :: rest => if c.isDigit then ['-', 'n'] :: (c :: cs) :: rest else arguments
    | _ => arguments
  let names := [("lines", 'n'), ("bytes", 'c'), ("quiet", 'q'), ("silent", 'q'), ("verbose", 'v')]
  let (options, files) ← optionsIn name 1 true "qv" "nc" (short names arguments)
  let shows := if hasLetter options 'v' then some true
    else if hasLetter options 'q' then some false else none
  match (options.filter fun o => o.1 = 'n' || o.1 = 'c').getLast? with
  | none => return (⟨false, false, 10⟩, shows, files)
  | some (c, word) =>
    match Extent.ofWord? (c = 'c') sign word with
    | some e => return (e, shows, files)
    | none =>
      let what := if c = 'c' then "bytes" else "lines"
      report name (bytesOf s!"invalid number of {what}: " ++ cited word)
      setStatus 1
      throw .exited

def extract (last : Bool) : Tool := fun _ name arguments => do
  let (e, shows, files) ← extentOf name (if last then '+' else '-') arguments
  if e.inBytes && files = ["/dev/zero".toList] then
    give (List.replicate e.amount '\x00')
    return 0
  let opening (file : Bytes) : Bytes := bytesOf "cannot open " ++ named file ++ bytesOf " for reading"
  let excuse : Excuse := ⟨opening, (bytesOf "error reading " ++ named ·)⟩
  let (texts, complete) ← readInputs name excuse files
  let mut first := true
  for (file, text) in texts do
    if shows.getD (1 < files.length) then
      let file := if file = ['-'] then bytesOf "standard input" else file
      give ((if first then [] else ['\n']) ++ bytesOf "==> " ++ file ++ bytesOf " <==\n")
    first := false
    let units := e.units text
    let kept := match last, e.inverse with
      | false, false => units.take e.amount
      | false, true => units.take (units.length - e.amount)
      | true, false => units.drop (units.length - e.amount)
      | true, true => units.drop (e.amount - 1)
    give kept.flatten
  return statusOf complete

structure Counts where
  lines : Nat
  words : Nat
  bytes : Nat
  longest : Nat

namespace Counts

def ofText (text : Bytes) : Counts :=
  let isGap (c : Char) : Bool := Arithmetic.isGap c
  let words := (text.splitBy fun a b => isGap a == isGap b).filter fun part => !part.all isGap
  let longest := ((plainLines text).map List.length).foldl max 0
  ⟨text.count '\n', words.length, text.length, longest⟩

def add (a b : Counts) : Counts :=
  ⟨a.lines + b.lines, a.words + b.words, a.bytes + b.bytes, max a.longest b.longest⟩

def row (c : Counts) (letters : Char → Bool) : List Nat :=
  (if letters 'l' then [c.lines] else []) ++ (if letters 'w' then [c.words] else [])
    ++ (if letters 'c' || letters 'm' then [c.bytes] else [])
    ++ if letters 'L' then [c.longest] else []

end Counts

def readsFile (s : Session) : Bool :=
  match s.channels.lookup 0 with
  | some (.file _) => true
  | _ => false

def count : Tool := fun _ name arguments => do
  let isFile := readsFile (← get)
  let names := [("lines", 'l'), ("words", 'w'), ("bytes", 'c'), ("chars", 'm'), ("max-line-length", 'L')]
  let (options, files) ← optionsIn name 1 true "lwcmL" "" (short names arguments)
  let (texts, complete) ← readInputs name .plain files
  let letters (c : Char) : Bool :=
    if options.isEmpty then ['l', 'w', 'c'].contains c else hasLetter options c
  let rows := texts.map fun (file, text) => (file, Counts.ofText text)
  let sum := rows.foldl (fun sum (_, counts) => sum.add counts) ⟨0, 0, 0, 0⟩
  let rows := if 1 < files.length then rows ++ [("total".toList, sum)] else rows
  let isSingle := (sum.row letters).length = 1 && rows.length = 1
  let width := if isSingle then 1 else if files.isEmpty && !isFile then 7
    else (Text.Numeral.digits sum.bytes).length
  for (file, counts) in rows do
    let fields := (counts.row letters).map fun n => (Text.Numeral.digits n).leftpad width ' '
    giveLines [joinWords fields ++ if files.isEmpty then [] else ' ' :: file]
  return statusOf complete

def setOf (fuel : Nat) (cs : List Char) : List Char :=
  match fuel with
  | 0 => []
  | fuel + 1 =>
    match cs with
    | [] => []
    | '\\' :: c :: cs =>
      if (octal? c).isSome then
        let (b, cs) := octalByte 0 3 (c :: cs)
        b :: setOf fuel cs
      else (letter? c).getD c :: setOf fuel cs
    | '[' :: ':' :: cs =>
      match kinds.find? fun (name, _) => name.toList.isPrefixOf (':' :: cs) with
      | some (name, holds) =>
        ((List.range 256).map Char.ofNat).filter holds ++ setOf fuel (cs.drop (name.length - 1))
      | none => '[' :: setOf fuel (':' :: cs)
    | a :: '-' :: b :: cs =>
      (List.range' a.toNat (b.toNat + 1 - a.toNat)).map Char.ofNat ++ setOf fuel cs
    | c :: cs => c :: setOf fuel cs

def exchange (old new : List Char) (c : Char) : Char :=
  match old.findIdx? (· = c) with
  | some i => (new[i]?.or new.getLast?).getD c
  | none => c

def squeezed (set : List Char) : List Char → List Char
  | a :: b :: rest =>
    if a = b && set.contains a then squeezed set (b :: rest) else a :: squeezed set (b :: rest)
  | cs => cs

def reversed? : List Char → Option (List Char)
  | a :: '-' :: b :: cs =>
    if a ≠ '\\' && a ≠ '[' && b < a then some [a, '-', b] else reversed? ('-' :: b :: cs)
  | _ :: cs => reversed? cs
  | [] => none

def checkSets (name : Bytes) (drops squeezes : Bool) (words : List Bytes) : Run Unit := do
  let least := if drops == squeezes then 2 else 1
  let most := if drops && !squeezes then 1 else 2
  let more (text : String) : Bytes := bytesOf ("\n" ++ text)
  match words with
  | [] => refuse name 1 (bytesOf "missing operand")
  | first :: rest =>
    if words.length < least then
      refuse name 1 (bytesOf "missing operand after " ++ cited first ++ more (
        if drops then "Two strings must be given when both deleting and squeezing repeats."
        else "Two strings must be given when translating."))
    if most < words.length then
      let extra := bytesOf "extra operand " ++ cited ((words[most]?).getD [])
      let why := more "Only one string may be given when deleting without squeezing repeats."
      refuse name 1 (if most = 1 && rest.length = 1 then extra ++ why else extra)
    if let some range := words.findSome? reversed? then
      report name (bytesOf "range-endpoints of " ++ cited range
        ++ bytesOf " are in reverse collating sequence order")
      setStatus 1
      throw .exited

def translate : Tool := fun _ name arguments => do
  let names := [("delete", 'd'), ("squeeze-repeats", 's'), ("complement", 'c'), ("truncate-set1", 't')]
  let (options, words) ← optionsIn name 1 false "dscCt" "" (short names arguments)
  let inverse := hasLetter options 'c' || hasLetter options 'C'
  let drops := hasLetter options 'd'
  let squeezes := hasLetter options 's'
  checkSets name drops squeezes words
  let all := (List.range 256).map Char.ofNat
  let set (word : Bytes) : List Char := setOf (word.length + 1) word
  let first (word : Bytes) : List Char :=
    if inverse then all.filter fun c => !(set word).contains c else set word
  let text := (← readAll 0).toOption.getD []
  match drops, words with
  | true, old :: rest =>
    let kept := text.filter fun c => !(first old).contains c
    give (match rest with
      | again :: _ => squeezed (set again) kept
      | [] => kept)
  | false, [again] => give (squeezed (first again) text)
  | false, old :: new :: _ =>
    let old := first old
    let old := if hasLetter options 't' then old.take (set new).length else old
    let changed := text.map (exchange old (set new))
    give (if squeezes then squeezed (set new) changed else changed)
  | _, [] => pure ()
  return 0

def unique : Tool := fun _ name arguments => do
  let names := [("count", 'c'), ("repeated", 'd'), ("unique", 'u'), ("ignore-case", 'i'),
    ("skip-chars", 's'), ("check-chars", 'w')]
  let (options, files) ← optionsIn name 1 true "cduiz" "sw" (short names arguments)
  let (texts, complete) ← readInputs name .plain (files.take 1)
  let amount (c : Char) : Option Nat := (wordWith? options c).bind wholeNumber?
  let compared (line : Bytes) : Bytes :=
    let line := line.drop ((amount 's').getD 0)
    let line := line.take ((amount 'w').getD line.length)
    if hasLetter options 'i' then line.map Char.toLower else line
  let lines := texts.flatMap fun (_, text) => plainLines text
  let groups := lines.splitBy fun a b => compared a == compared b
  for group in groups do
    let shown := (!hasLetter options 'd' || 1 < group.length)
      && (!hasLetter options 'u' || group.length = 1)
    if shown then
      let line := group.headD []
      let digits := Text.Numeral.digits group.length
      giveLines [if hasLetter options 'c' then digits.leftpad 7 ' ' ++ ' ' :: line else line]
  return statusOf complete

def reverseLines : Tool := fun _ name arguments => do
  let (texts, complete) ← readInputs name ⟨(bytesOf "cannot open " ++ ·), id⟩ arguments
  for (_, text) in texts do
    for line in linesOf text do
      let plain := withoutEnd line
      give (plain.reverse ++ line.drop plain.length)
  return statusOf complete

def reverseOrder : Tool := fun _ name arguments => do
  let opening (file : Bytes) : Bytes := bytesOf "failed to open " ++ named file ++ bytesOf " for reading"
  let excuse : Excuse := ⟨opening, fun file => sheltered file ++ bytesOf ": read error"⟩
  let (texts, complete) ← readInputs name excuse arguments
  for (_, text) in texts do
    give (linesOf text).reverse.flatten
  return statusOf complete

def rangesOf? (list : Bytes) : Option (List (Nat × Option Nat)) :=
  (list.splitOn ',').mapM fun range =>
    match range.splitOn '-' with
    | [n] => (wholeNumber? n).map fun n => (n, some n)
    | [a, b] => do
      let least ← if a.isEmpty then some 1 else wholeNumber? a
      if b.isEmpty then return (least, none) else return (least, some (← wholeNumber? b))
    | _ => none

def itemsAt {α : Type} (inverse : Bool) (ranges : List (Nat × Option Nat)) (items : List α) :
    List α :=
  (items.zipIdx 1).filterMap fun (item, place) =>
    let found := ranges.any fun (least, most) => least ≤ place && place ≤ most.getD place
    if found != inverse then some item else none

def cut : Tool := fun _ name arguments => do
  let names := [("fields", 'f'), ("delimiter", 'd'), ("characters", 'c'), ("bytes", 'b'),
    ("only-delimited", 's'), ("complement", 'C'), ("output-delimiter", 'o')]
  let (options, files) ← optionsIn name 1 true "snC" "bcfdo" (short names arguments)
  let marks := (wordWith? options 'd').getD ['\t']
  if 1 < marks.length then refuse name 1 (bytesOf "the delimiter must be a single character")
  let mark := marks.headD '\x00'
  let byPlace := (wordWith? options 'c').or (wordWith? options 'b')
  let some list := byPlace.or (wordWith? options 'f')
    | refuse name 1 (bytesOf "you must specify a list of bytes, characters, or fields")
  let inverse := hasLetter options 'C'
  let what := if byPlace.isSome then "byte/character position" else "field"
  let some ranges := rangesOf? list
    | refuse name 1 (bytesOf ("invalid " ++ what ++ " value ") ++ cited list)
  if ranges.any fun (least, _) => least = 0 then
    let what := if byPlace.isSome then "byte/character positions" else "fields"
    refuse name 1 (bytesOf (what ++ " are numbered from 1"))
  if ranges.any fun (least, most) => most.any (· < least) then
    refuse name 1 (bytesOf "invalid decreasing range")
  let (texts, complete) ← readInputs name .plain files
  for line in texts.flatMap fun (_, text) => plainLines text do
    if byPlace.isSome then giveLines [itemsAt inverse ranges line]
    else if line.contains mark then
      let between := (wordWith? options 'o').getD [mark]
      giveLines [between.intercalate (itemsAt inverse ranges (line.splitOn mark))]
    else unless hasLetter options 's' do giveLines [line]
  return statusOf complete

def copyOut : Tool := fun _ name arguments => do
  let (options, files) ← optionsIn name 1 true "ai" "" arguments
  let text := (← readAll 0).toOption.getD []
  give text
  let good ← forAll files fun file => do
    let kind : OpenKind := if hasLetter options 'a' then .append else .write
    let s ← get
    match s.openPath (textOf file) kind with
    | .error fault =>
      reportFault name (sheltered file) fault
      return false
    | .ok (channel, opened) =>
      set (opened.connect 1000 channel)
      let _ ← write 1000 text
      modify (Session.disconnect 1000)
      return true
  return statusOf good

def series : Tool := fun _ name arguments => do
  let isNumber (word : Bytes) : Bool := (Arithmetic.value? word).isSome
  let given := short [("separator", 's'), ("equal-width", 'w'), ("format", 'f')] arguments
  let (options, words) ←
    if arguments.head?.any isNumber then pure ([], arguments)
    else optionsIn name 1 false "w" "sf" given
  let between := (wordWith? options 's').getD ['\n']
  let lines (first step last : Int) : Run Nat := do
    if step = 0 then refuse name 1 (bytesOf "invalid Zero increment value: " ++ cited ['0'])
    let n := if (last - first) * step < 0 then 0 else ((last - first).tdiv step).toNat + 1
    let numbers := (List.range n).map fun (i : Nat) => first + i * step
    let width := (numbers.map fun k => (Arithmetic.render k).length).foldl max 0
    let padded (k : Int) : Bytes :=
      let digits := Text.Numeral.digits k.natAbs
      if k < 0 then '-' :: digits.leftpad (width - 1) '0' else digits.leftpad width '0'
    let write (k : Int) : Bytes :=
      match wordWith? options 'f' with
      | some format => (printfText format [Arithmetic.render k]).text
      | none => if hasLetter options 'w' then padded k else Arithmetic.render k
    let text := between.intercalate (numbers.map write)
    unless numbers.isEmpty do give (text ++ ['\n'])
    return 0
  let numbers := words.map Arithmetic.value?
  match words.find? (!isNumber ·) with
  | some word => refuse name 1 (bytesOf "invalid floating point argument: " ++ cited word)
  | none =>
    match numbers with
    | [some last] => lines 1 1 last
    | [some first, some last] => lines first 1 last
    | [some first, some step, some last] => lines first step last
    | [] => refuse name 1 (bytesOf "missing operand")
    | _ => refuse name 1 (bytesOf "extra operand " ++ cited ((words[3]?).getD []))

end PushKeeper.Shell.Tools
