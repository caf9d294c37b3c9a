import PushKeeper.Shell.Launch

namespace PushKeeper.Shell.Builtin

def say (cs : Bytes) : Run Nat := do
  if cs.isEmpty then return 0
  if ← write 1 cs then return 0
  complain ((← get).running.getD [] ++ bytesOf ": I/O error")
  return 1

def sayLines (lines : List Bytes) : Run Nat := say (lines.flatMap (· ++ ['\n']))

def readOptions (plain taking : String) : List Bytes → Run (List (Char × Bytes) × List Bytes)
  | [] => return ([], [])
  | word :: rest => do
    let letters := word.drop 1
    if word.head? ≠ some '-' || letters.isEmpty then return ([], word :: rest)
    if letters = ['-'] then return ([], rest)
    let takes (c : Char) : Bool := taking.contains c
    let flags := letters.takeWhile (!takes ·)
    if let some c := flags.find? (!plain.contains ·) then fail (bytesOf "Illegal option -" ++ [c])
    let given := flags.map (·, [])
    match letters.drop flags.length, rest with
    | [], rest => do
      let (more, words) ← readOptions plain taking rest
      return (given ++ more, words)
    | c :: x :: xs, rest => do
      let (more, words) ← readOptions plain taking rest
      return (given ++ (c, x :: xs) :: more, words)
    | [c], value :: rest => do
      let (more, words) ← readOptions plain taking rest
      return (given ++ (c, value) :: more, words)
    | [c], [] => fail (bytesOf "No arg for -" ++ c :: bytesOf " option")

def afterOptions (plain : String) (words : List Bytes) : Run (List Char × List Bytes) := do
  let (options, words) ← readOptions plain "" words
  return (options.map (·.1), words)

end PushKeeper.Shell.Builtin
