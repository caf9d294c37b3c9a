import PushKeeper.Shell.Tools.Basic
import PushKeeper.Shell.Tools.Form

namespace PushKeeper.Shell.Tools

def partsOf (forms : List Form) : Nat → Form.Spot → List Bytes
  | 0, _ => []
  | fuel + 1, s =>
    let found := forms.filterMap (·.find? s)
    let first := found.foldl (fun best (a, b) =>
      match best with
      | none => some (a, b)
      | some (c, d) =>
        if a.place < c.place || (a.place = c.place && d.place < b.place) then some (a, b) else best)
      none
    match first with
    | none => []
    | some (a, b) =>
      let text := a.rest.take (b.place - a.place)
      if text.isEmpty then
        match b.next? with
        | some (_, next) => partsOf forms fuel next
        | none => []
      else text :: partsOf forms fuel b

def search (plain extended : Bool) : Tool := fun _ name arguments => do
  let (options, words) ← optionsIn name 2 true "qvcixwFEGnhHsalLo" "em" arguments
  let has (c : Char) : Bool := hasLetter options c
  let given := (options.filter (·.1 = 'e')).map (·.2)
  let (patterns, files) := if given.isEmpty then (words.take 1, words.drop 1) else (given, words)
  if patterns.isEmpty then
    let _ ← write 2 (bytesOf "Usage: " ++ name ++ bytesOf (" [OPTION]... PATTERNS [FILE]...\nTry '")
      ++ name ++ bytesOf " --help' for more information.\n")
    return 2
  let texts := patterns.flatMap fun text => if text.isEmpty then [[]] else plainLines text
  let form (text : Bytes) : Except Form.Fault Form :=
    if plain || has 'F' then .ok (Form.exactly text) else Form.ofText ⟨extended || has 'E', true⟩ text
  let around (f : Form) : Form :=
    let f := if has 'i' then f.anyCase else f
    if has 'x' then .both .start (.both f .finish)
    else if has 'w' then .both (.edge (some false) none) (.both f (.edge none (some false)))
    else f
  let forms ← match texts.mapM form with
    | .ok forms => pure (forms.map around)
    | .error fault =>
      report name (bytesOf fault.message)
      return 2
  let selects (line : Bytes) : Bool :=
    (forms.any fun f => (f.find? (.atStart line)).isSome) != has 'v'
  let most := ((wordWith? options 'm').bind wholeNumber?).getD (Nat.pow 2 31)
  let mut found := false
  let mut complete := true
  for file in if files.isEmpty then [['-']] else files do
    match ← readInput file with
    | .error fault =>
      unless has 's' do reportFault name file fault
      complete := false
    | .ok text =>
      let lines := (plainLines text).zipIdx 1
      let lines := (lines.filter fun (line, _) => selects line).take most
      unless lines.isEmpty do found := true
      let before : Bytes := if (1 < files.length || has 'H') && !has 'h' then file ++ [':'] else []
      unless has 'q' do
        if has 'c' then giveLines [before ++ Text.Numeral.digits lines.length]
        else if has 'l' then unless lines.isEmpty do giveLines [file]
        else if has 'L' then if lines.isEmpty then giveLines [file]
        else
          for (line, number) in lines do
            let before := if has 'n' then before ++ Text.Numeral.digits number ++ [':'] else before
            let shown := if has 'o' then partsOf forms (line.length + 1) (.atStart line)
              else [line]
            giveLines (shown.map (before ++ ·))
  return if !complete && !(found && has 'q') then 2 else statusOf found

end PushKeeper.Shell.Tools
