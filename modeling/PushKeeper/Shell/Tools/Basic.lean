import PushKeeper.Shell.Launch
import PushKeeper.Shell.Tools.Quoted

namespace PushKeeper.Shell.Tools

abbrev Tool := Runner → Bytes → List Bytes → Run Nat

def give (cs : Bytes) : Run Unit := do
  let _ ← write 1 cs

def giveLines (lines : List Bytes) : Run Unit := give (lines.flatMap (· ++ ['\n']))

def report (name text : Bytes) : Run Unit := do
  let _ ← write 2 (name ++ [':', ' '] ++ text ++ ['\n'])

def reportFault (name text : Bytes) (fault : Files.Fault) : Run Unit :=
  report name (text ++ bytesOf (": " ++ fault.reason))

def refuse {α : Type} (name : Bytes) (status : Nat) (text : Bytes) : Run α := do
  report name text
  let _ ← write 2 (bytesOf "Try '" ++ name ++ bytesOf " --help' for more information.\n")
  setStatus status
  throw .exited

def short (names : List (String × Char)) : List Bytes → List Bytes
  | [] => []
  | ['-', '-'] :: rest => ['-', '-'] :: rest
  | word :: rest =>
    let name := word.takeWhile (· ≠ '=')
    match names.find? fun (text, _) => bytesOf ("--" ++ text) = name with
    | some (_, letter) =>
      let value := word.drop name.length
      (if value.isEmpty then [['-', letter]] else [['-', letter], value.drop 1]) ++ short names rest
    | none => word :: short names rest

def optionsIn (name : Bytes) (status : Nat) (mixed : Bool) (plain taking : String) :
    List Bytes → Run (List (Char × Bytes) × List Bytes)
  | [] => return ([], [])
  | word :: rest => do
    let letters := word.drop 1
    if word.head? ≠ some '-' || letters.isEmpty then
      if mixed then
        let (options, words) ← optionsIn name status mixed plain taking rest
        return (options, word :: words)
      else return ([], word :: rest)
    if letters = ['-'] then return ([], rest)
    if letters.head? = some '-' then refuse name status (bytesOf "unrecognized option " ++ marked word)
    let takes (c : Char) : Bool := taking.contains c
    let flags := letters.takeWhile (!takes ·)
    if let some c := flags.find? (!plain.contains ·) then
      refuse name status (bytesOf "invalid option -- " ++ marked [c])
    let given := flags.map (·, [])
    match letters.drop flags.length, rest with
    | [], rest => do
      let (more, words) ← optionsIn name status mixed plain taking rest
      return (given ++ more, words)
    | c :: x :: xs, rest => do
      let (more, words) ← optionsIn name status mixed plain taking rest
      return (given ++ (c, x :: xs) :: more, words)
    | [c], value :: rest => do
      let (more, words) ← optionsIn name status mixed plain taking rest
      return (given ++ (c, value) :: more, words)
    | [c], [] => refuse name status (bytesOf "option requires an argument -- " ++ marked [c])

def hasLetter (options : List (Char × Bytes)) (c : Char) : Bool := options.any (·.1 = c)

def wordWith? (options : List (Char × Bytes)) (c : Char) : Option Bytes :=
  (options.filter (·.1 = c)).getLast?.map (·.2)

def readInput (file : Bytes) : Run (Except Files.Fault Bytes) := do
  if file = ['-'] then readAll 0 else return (← get).fileText (textOf file)

structure Excuse where
  opening : Bytes → Bytes
  reading : Bytes → Bytes

def Excuse.plain : Excuse := ⟨sheltered, sheltered⟩

def Excuse.text (e : Excuse) (fault : Files.Fault) (file : Bytes) : Bytes :=
  if fault = .isDirectory then e.reading file else e.opening file

def readInputs (name : Bytes) (excuse : Excuse) (files : List Bytes) :
    Run (List (Bytes × Bytes) × Bool) := do
  let mut texts := #[]
  let mut complete := true
  for file in if files.isEmpty then [['-']] else files do
    match ← readInput file with
    | .ok text => texts := texts.push (file, text)
    | .error fault =>
      reportFault name (excuse.text fault file) fault
      complete := false
  return (texts.toList, complete)

def forAll (words : List Bytes) (work : Bytes → Run Bool) : Run Bool := do
  let mut good := true
  for word in words do
    unless ← work word do good := false
  return good

def withoutEnd (line : Bytes) : Bytes :=
  if line.getLast? = some '\n' then line.dropLast else line

def plainLines (text : Bytes) : List Bytes := (linesOf text).map withoutEnd

end PushKeeper.Shell.Tools
