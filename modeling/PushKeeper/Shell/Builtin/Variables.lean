import PushKeeper.Shell.Builtin.Switches
import PushKeeper.Shell.Expansion

namespace PushKeeper.Shell.Builtin

def nameAndValue (word : Bytes) : Bytes × Option Bytes :=
  match splitEquals? word with
  | some (name, value) => (name, some value)
  | none => (word, none)

def variableLines (command : Bytes) (vs : List Variable) : List Bytes :=
  (vs.mergeSort fun a b => inOrder a.name b.name).map fun v =>
    command ++ v.name ++
      match v.value with
      | some value => '=' :: singleQuoted value
      | none => []

def declare (command : String) (mark : Variable → Variable) (has : Variable → Bool)
    (arguments : List Bytes) : Run Nat := do
  let (letters, words) ← afterOptions "p" arguments
  if !letters.isEmpty || words.isEmpty then
    sayLines (variableLines (bytesOf command ++ [' ']) ((← get).vars.filter has))
  else
    for word in words do
      let (name, value) := nameAndValue word
      match value with
      | some value => setVariable name value
      | none => unless isName name do fail (name ++ bytesOf ": bad variable name")
      modify fun s => s.putVariable (mark (s.variableOr name))
    return 0

def handOn (arguments : List Bytes) : Run Nat :=
  declare "export" (fun v => { v with exported := true }) (·.exported) arguments

def fix (arguments : List Bytes) : Run Nat :=
  declare "readonly" (fun v => { v with fixed := true }) (·.fixed) arguments

def keepVariable (name : Bytes) : Run Unit :=
  modify fun s => s.keep (.variable name (s.named? name))

def localize (arguments : List Bytes) : Run Nat := do
  if (← get).frames.isEmpty then fail (bytesOf "not in a function")
  for word in arguments do
    if word = ['-'] then modify fun s => s.keep (.options s.options)
    else
      let (name, value) := nameAndValue word
      unless isName name do fail (name ++ bytesOf ": bad variable name")
      keepVariable name
      if let some value := value then setVariable name value
  return 0

def unset (arguments : List Bytes) : Run Nat := do
  let (letters, names) ← afterOptions "vf" arguments
  for name in names do
    if letters.getLast? = some 'f' then
      modify fun s => { s with functions := s.functions.filter (·.1 ≠ name) }
    else unsetVariable name
  return 0

def setUp (arguments : List Bytes) : Run Nat := do
  if arguments.isEmpty then
    sayLines (variableLines [] ((← get).vars.filter (·.value.isSome)))
  else
    let asked ← switched false arguments
    if asked.isSet || !asked.words.isEmpty then
      modify fun s => { s with arguments := asked.words, optionWord := 1, optionLetter := none }
    return 0

def shift (arguments : List Bytes) : Run Nat := do
  let n ← match arguments with
    | [] => pure 1
    | word :: _ => wholeNumber word
  if (← get).arguments.length < n then fail (bytesOf "can't shift that many")
  modify fun s => { s with
    arguments := s.arguments.drop n
    optionWord := 1
    optionLetter := none }
  return 0

structure LineRead where
  parts : List Part
  count : Nat
  complete : Bool

def readParts (asIs : Bool) (cs : Bytes) : LineRead :=
  match cs with
  | [] => ⟨[], 0, false⟩
  | c :: rest =>
    let after (part : List Part) (count : Nat) (r : LineRead) : LineRead :=
      ⟨part ++ r.parts, r.count + count, r.complete⟩
    if c = '\n' then ⟨[], 1, true⟩
    else if c = '\x00' then after [] 1 (readParts asIs rest)
    else if c = '\\' && !asIs then
      match rest with
      | [] => ⟨[], 1, false⟩
      | '\n' :: rest => after [] 2 (readParts asIs rest)
      | d :: rest => after [.fixed true [d]] 2 (readParts asIs rest)
    else after [.loose [c]] 1 (readParts asIs rest)

def joined : List Part → List Part
  | [] => []
  | part :: rest =>
    match part, joined rest with
    | .loose a, .loose b :: parts => .loose (a ++ b) :: parts
    | part, parts => part :: parts

def setFields : List Bytes → List Bytes → Run Unit
  | [], _ => return
  | name :: names, fields => do
    setVariable name (fields.headD [])
    setFields names fields.tail

def readLine (arguments : List Bytes) : Run Nat := do
  let (options, names) ← readOptions "r" "p" arguments
  if names.isEmpty then fail (bytesOf "arg count")
  let s ← get
  let asIs := options.any (·.1 = 'r')
  let r := readParts asIs ((s.readable 0).toOption.getD [])
  set (s.consume 0 r.count)
  let separators := s.separators.getD usualSeparators
  setFields names (shares separators names.length (joined r.parts))
  return statusOf r.complete

inductive Letter
  | unknown
  | plain
  | taking
  deriving DecidableEq

def letterAmong (c : Char) : List Char → Letter
  | [] => .unknown
  | x :: ':' :: rest => if x = c then .taking else letterAmong c rest
  | x :: rest => if x = c then .plain else letterAmong c rest

inductive Given
  | asBefore
  | nothing
  | word (cs : Bytes)
  deriving DecidableEq

structure Next where
  found : Char
  given : Given
  word : Nat
  letter : Option Nat
  complaint : Option Bytes
  done : Bool

def Next.ofLetter (wanted : Bytes) (words : List Bytes) (word : Nat) (c : Char) (rest : Bytes) : Next :=
  let isQuiet := wanted.head? = some ':'
  let place := ((words[word - 2]?).getD []).length - rest.length
  let complaint (text : Bytes) : Option Bytes := if isQuiet then none else some text
  let given : Given := if isQuiet then .word [c] else .nothing
  match letterAmong c wanted with
  | .unknown => ⟨'?', given, word, some place, complaint (bytesOf "Illegal option -" ++ [c]), false⟩
  | .plain => ⟨c, .word [], word, some place, none, false⟩
  | .taking =>
    if !rest.isEmpty then ⟨c, .word rest, word, none, none, false⟩
    else
      match words[word - 1]? with
      | some value => ⟨c, .word value, word + 1, none, none, false⟩
      | none =>
        let found := if isQuiet then ':' else '?'
        ⟨found, given, word, some place, complaint (bytesOf "No arg for -" ++ c :: bytesOf " option"),
          false⟩

def Next.ofWords (wanted : Bytes) (words : List Bytes) (word : Nat) (letter : Option Nat) : Next :=
  let rest := (letter.bind fun place => words[word - 2]?.map (·.drop place)).getD []
  match if word ≤ 1 then [] else rest with
  | c :: cs => .ofLetter wanted words word c cs
  | [] =>
    match words[word - 1]? with
    | some ['-', '-'] => ⟨'?', .asBefore, word + 1, none, none, true⟩
    | some ('-' :: c :: cs) => .ofLetter wanted words (word + 1) c cs
    | _ => ⟨'?', .asBefore, word, none, none, true⟩

def nextOption (arguments : List Bytes) : Run Nat := do
  match arguments with
  | wanted :: name :: others =>
    let s ← get
    let words := if others.isEmpty then s.arguments else others
    let isFar := words.length + 1 < s.optionWord
    let next := if isFar then Next.ofWords wanted words 1 none
      else Next.ofWords wanted words s.optionWord s.optionLetter
    match next.given with
    | .asBefore => pure ()
    | .nothing => unsetVariable "OPTARG".toList
    | .word cs => setVariable "OPTARG".toList cs
    if let some text := next.complaint then
      let _ ← write 2 (text ++ ['\n'])
    modify (Session.assign Session.placeName (Text.Numeral.digits next.word))
    setVariable name [next.found]
    modify fun s => { s with optionWord := next.word, optionLetter := next.letter }
    return statusOf !next.done
  | _ => fail (bytesOf "Usage: getopts optstring var [arg...]")

def aliasLine (a : Bytes × Bytes) : Bytes := a.1 ++ '=' :: singleQuoted a.2

def setAliases (arguments : List Bytes) : Run Nat := do
  if arguments.isEmpty then
    let all := (← get).aliases.mergeSort fun a b => Session.bucket a.1 ≤ Session.bucket b.1
    return ← sayLines (all.map aliasLine)
  let mut status := 0
  for word in arguments do
    -- An equals sign in front belongs to the name.
    let (name, value) := nameAndValue (word.drop 1)
    let name := word.take 1 ++ name
    let s ← get
    match value with
    | some value =>
      let known := (s.aliases.lookup name).isSome
      set { s with aliases :=
        if known then s.aliases.map fun (n, v) => (n, if n = name then value else v)
        else s.aliases ++ [(name, value)] }
    | none =>
      match s.aliases.lookup name with
      | some value =>
        let _ ← sayLines [aliasLine (name, value)]
      | none =>
        let _ ← write 2 (bytesOf "alias: " ++ name ++ bytesOf " not found\n")
        status := 1
  return status

def unalias (arguments : List Bytes) : Run Nat := do
  let (letters, names) ← afterOptions "a" arguments
  if !letters.isEmpty then
    modify fun s => { s with aliases := [] }
    return 0
  let mut status := 0
  for name in names do
    let s ← get
    if (s.aliases.lookup name).isSome then
      set { s with aliases := s.aliases.filter (·.1 ≠ name) }
    else
      let _ ← write 2 (bytesOf "unalias: " ++ name ++ bytesOf " not found\n")
      status := 1
  return status

def octalDigits (n : Nat) : Bytes :=
  let digits := Nat.toDigits 8 n
  List.replicate (4 - digits.length) '0' ++ digits

def rights (mask : Nat) : Bytes :=
  let letters (shift : Nat) : Bytes :=
    [(4, 'r'), (2, 'w'), (1, 'x')].filterMap fun (bit, c) =>
      if mask / Nat.pow 8 shift / bit % 2 = 0 then some c else none
  [','].intercalate ([('u', 2), ('g', 1), ('o', 0)].map fun (who, shift) => who :: '=' :: letters shift)

def changedRights? (given : Nat) (text : Bytes) : Option Nat :=
  let who := text.takeWhile ['u', 'g', 'o', 'a'].contains
  let shifts := if who.isEmpty || who.contains 'a' then [0, 1, 2]
    else [('o', 0), ('g', 1), ('u', 2)].filterMap fun (c, n) => if who.contains c then some n else none
  match text.drop who.length with
  | sign :: what =>
    if ['+', '-', '='].contains sign && what.all ['r', 'w', 'x'].contains then
      let bits := [('r', 4), ('w', 2), ('x', 1)].foldl (fun bits (c, n) =>
        if what.contains c then bits + n else bits) 0
      some <| shifts.foldl (fun (rights : Nat) shift =>
        let old := rights / Nat.pow 8 shift % 8
        let new := if sign = '=' then bits else if sign = '+' then old ||| bits
          else old - (old &&& bits)
        rights - old * Nat.pow 8 shift + new * Nat.pow 8 shift) given
    else none
  | [] => none

def mask (arguments : List Bytes) : Run Nat := do
  let (letters, words) ← afterOptions "S" arguments
  let current := (← get).mask
  match words with
  | [] => sayLines [if letters.isEmpty then octalDigits current else rights current]
  | word :: _ =>
    if (word.head?.map Char.isDigit).getD false then
      let n := word.foldl (fun n c => 8 * n + (c.toNat - 48)) 0
      if (word.any fun c => c < '0' || '7' < c) then illegalNumber word
      modify fun s => { s with mask := n % 512 }
    else
      match (word.splitOn ',').foldlM changedRights? (511 - current) with
      | some rights => modify fun s => { s with mask := 511 - rights }
      | none => fail (bytesOf "Illegal mode: " ++ word)
    return 0

end PushKeeper.Shell.Builtin
