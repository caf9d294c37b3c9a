import PushKeeper.Shell.Condition
import PushKeeper.Shell.Tools.Calculation
import PushKeeper.Shell.Tools.Dump
import PushKeeper.Shell.Tools.Editing
import PushKeeper.Shell.Tools.Files
import PushKeeper.Shell.Tools.Lines
import PushKeeper.Shell.Tools.Search
import PushKeeper.Shell.Tools.Sorting
import PushKeeper.Shell.Tools.Starters

namespace PushKeeper.Shell.Tools

def answer : Tool := fun _ name arguments => do
  let isBracket := lastName name = ['[']
  if isBracket && arguments.getLast? ≠ some [']'] then
    report name (bytesOf "missing " ++ cited [']'])
    return 2
  let words := if isBracket then arguments.dropLast else arguments
  match Condition.holds (← get).tree words with
  | .ok b => return statusOf b
  | .error fault =>
    report name fault.message
    return 2

def format : Tool := fun _ name arguments => do
  match if arguments.head? = some ['-', '-'] then arguments.tail else arguments with
  | [] => refuse name 1 (bytesOf "missing operand")
  | format :: words =>
    let f := printfText format words
    give f.text
    for text in f.complaints do report name text
    return statusOf f.complaints.isEmpty

def always (line : String) : Tool := fun _ _ _ => do
  give (bytesOf line ++ ['\n'])
  return 0

def identity : Tool := fun _ _ arguments => do
  let number := arguments.any fun word => word.head? = some '-' && !word.contains 'n'
  give (bytesOf (
    if arguments.isEmpty then "uid=0(root) gid=0(root) groups=0(root)\n"
    else if number then "0\n" else "root\n"))
  return 0

def all : List (String × Tool) :=
  [("true", fun _ _ _ => return 0), ("false", fun _ _ _ => return 1), ("echo", writeWords),
    ("printf", format), ("test", answer), ("[", answer),
    ("pwd", fun _ _ _ => do
      giveLines [bytesOf ("/" ++ "/".intercalate (← get).tree.here)]
      return 0),
    ("cat", concatenate), ("head", extract false), ("tail", extract true), ("wc", count),
    ("tr", translate), ("sort", sort), ("uniq", unique), ("rev", reverseLines), ("tac", reverseOrder),
    ("cut", cut), ("tee", copyOut), ("seq", series), ("grep", search false false),
    ("egrep", search false true), ("fgrep", search true false), ("touch", touch),
    ("mkdir", makeDirectories), ("rmdir", removeDirectories), ("rm", remove), ("ls", list),
    ("cp", copy), ("mv", move), ("chmod", changeRights), ("basename", lastNameOf),
    ("dirname", aboveNameOf), ("env", withVariables), ("nice", politely), ("nohup", lasting),
    ("setsid", apart), ("timeout", inTime), ("xargs", withWords), ("printenv", tellVariables),
    ("which", tellPaths), ("sleep", sleep), ("whoami", always "root"), ("uname", always "Linux"),
    ("id", identity), ("sed", edit), ("expr", calculate), ("od", dump)]

end PushKeeper.Shell.Tools
