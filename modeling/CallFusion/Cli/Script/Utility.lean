import CallFusion.Cli.Script.Format
import CallFusion.Workspace

/-! The few programs that are on every system. -/
namespace CallFusion.Cli.Script

open Text

def cat (w : Workspace) (path : String) (args : List String) (isDirectory : Bool) (input : String) : ProgramEnd :=
  let files := if args.isEmpty then ["-"] else args
  files.foldl (fun e file =>
    let failing (text : String) : ProgramEnd :=
      { e with errors := e.errors ++ path ++ ": " ++ file ++ ": " ++ text ++ "\n", ending := .exited 1 }
    if file == "-" then if isDirectory then failing "Is a directory" else { e with output := e.output ++ input }
    else
      match w.status file with
      | .ok .directory => failing "Is a directory"
      | .ok _ => { e with output := e.output ++ (w.read file).toOption.getD "" }
      | .error .notDirectory => failing "Not a directory"
      | .error _ => failing "No such file or directory") {}

/-- Prints words. Options come first: `n` leaves the line end out, `e` and `E` turn escapes on and off. -/
def echoProgram (args : List String) : ProgramEnd :=
  let isOption (word : String) : Bool :=
    word.length > 1 && word.startsWith "-" && word.toList.tail.all fun c => ['n', 'e', 'E'].contains c
  let options := args.takeWhile isOption
  let letters := options.flatMap fun word => word.toList.tail
  let line := " ".intercalate (args.drop options.length)
  let hasEscapes := (letters.filter (· != 'n')).getLast? == some 'e'
  let (text, ended) := if hasEscapes then unescaped (line.length + 1) line.toList else (line.toList, false)
  { output := String.ofList text ++ if ended || letters.contains 'n' then "" else "\n" }

def runUtility (w : Workspace) (name path : String) (args : List String) (isDirectory : Bool) (input : String) :
    ProgramEnd :=
  match name with
  | "cat" => cat w path args isDirectory input
  | "echo" => echoProgram args
  | "false" => { ending := .exited 1 }
  | _ => {}

end CallFusion.Cli.Script
