import PushKeeper.Shell.Builtin.Basic

namespace PushKeeper.Shell.Builtin

def switches : List (String × Option Char) :=
  [("errexit", some 'e'), ("noglob", some 'f'), ("ignoreeof", some 'I'), ("interactive", some 'i'),
    ("monitor", some 'm'), ("noexec", some 'n'), ("stdin", some 's'), ("xtrace", some 'x'),
    ("verbose", some 'v'), ("vi", some 'V'), ("emacs", some 'E'), ("noclobber", some 'C'),
    ("allexport", some 'a'), ("notify", some 'b'), ("nounset", some 'u'), ("privileged", some 'p'),
    ("nolog", none), ("debug", none)]

def switch (on : Bool) (c : Char) : Run Unit := do
  let others := (← get).options.filter (· ≠ c)
  if on && c = 'm' then complain (bytesOf "can't access tty; job control turned off")
  else modify fun s => { s with options := if on then c :: others else others }

def sign (on : Bool) : Char := if on then '-' else '+'

def listing (inWords atStart : Bool) : Run Bytes := do
  let on := (← get).options
  let line (name : String) (letter : Option Char) : String :=
    let isOn := atStart || (letter.map on.contains).getD false
    if inWords then String.ofList (name.toList.rightpad 16 ' ') ++ if isOn then "on\n" else "off\n"
    else (if isOn then "set -o " else "set +o ") ++ name ++ "\n"
  let lines := bytesOf (String.join (switches.map fun (name, letter) => line name letter))
  return if inWords then bytesOf "Current option settings\n" ++ lines else lines

def switchLetter (on : Bool) (c : Char) : Run Unit := do
  if (switches.any fun (_, letter) => letter == some c) then switch on c
  else fail (bytesOf "Illegal option " ++ [sign on, c])

def switchName (atStart on : Bool) (name : Option Bytes) : Run Unit := do
  match name with
  | none =>
    let _ ← say (← listing on atStart)
  | some name =>
    match switches.lookup (textOf name) with
    | some (some c) => switch on c
    | some none => pure ()
    | none => fail (bytesOf "Illegal option " ++ sign on :: bytesOf "o " ++ name)

structure Asked where
  hasScript : Bool
  words : List Bytes
  isSet : Bool

def switchAll (atStart on : Bool) (asked : Asked) : List Char → Run Asked
  | [] => return asked
  | 'o' :: cs => do
    switchName atStart on asked.words.head?
    switchAll atStart on { asked with words := asked.words.tail } cs
  | c :: cs => do
    if atStart && c = 'c' then switchAll atStart on { asked with hasScript := true } cs
    else if atStart && c = 'l' then switchAll atStart on asked cs
    else do
      switchLetter on c
      switchAll atStart on asked cs

def switchWords (atStart : Bool) : Nat → Asked → Run Asked
  | 0, asked => return asked
  | count + 1, asked =>
    match asked.words with
    | ('-' :: letters) :: rest => do
      if letters = ['-'] then return { asked with words := rest, isSet := true }
      else if letters.isEmpty then do
        unless atStart do
          switch false 'x'
          switch false 'v'
        return { asked with words := rest }
      else switchWords atStart count (← switchAll atStart true { asked with words := rest } letters)
    | ('+' :: letters) :: rest => do
      switchWords atStart count (← switchAll atStart false { asked with words := rest } letters)
    | _ => return asked

def switched (atStart : Bool) (words : List Bytes) : Run Asked :=
  switchWords atStart words.length ⟨false, words, false⟩

end PushKeeper.Shell.Builtin
