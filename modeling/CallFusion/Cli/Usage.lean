import CallFusion.Cli.Command

/-! Help texts of a program and its commands. -/
namespace CallFusion.Cli

open Text

def FlagKind.valueName : FlagKind → String
  | switch => ""
  | text => " string"
  | integer => " int"
  | texts => " stringArray"

def Flag.defaultNote (f : Flag) : String :=
  match f.kind with
  | .switch => if f.default == "false" then "" else " (default " ++ f.default ++ ")"
  | .integer => if f.default == "0" then "" else " (default " ++ f.default ++ ")"
  | .text => if f.default.isEmpty then "" else " (default " ++ quoted f.default ++ ")"
  | .texts => ""

def Flag.synopsis (f : Flag) : String :=
  (match f.short with
    | some c => "  -" ++ String.singleton c ++ ", --"
    | none => "      --") ++ f.name ++ f.kind.valueName

def flagLines (flags : List Flag) : String :=
  let flags := flags.mergeSort fun a b => a.name ≤ b.name
  let width := (flags.map (·.synopsis.length)).foldl max 0
  "\n".intercalate (flags.map fun f =>
    f.synopsis ++ String.ofList (List.replicate (width - f.synopsis.length + 3) ' ') ++ f.usage ++ f.defaultNote)

def padName (width : Nat) (name : String) : String :=
  name ++ String.ofList (List.replicate (width - name.length) ' ')

namespace Program

def useLine (p : Program) (c : Command) : String :=
  let line := p.name ++ " " ++ c.form
  if c.mentionsFlags && (line.splitOn "[flags]").length == 1 then line ++ " [flags]" else line

def commandUsage (p : Program) (c : Command) : String :=
  "Usage:\n  " ++ p.useLine c ++
    (if c.samples.isEmpty then "" else "\n\nExamples:\n" ++ c.samples) ++
    "\n\nFlags:\n" ++ flagLines (c.flags ++ [helpFlag c.name]) ++
    "\n\nGlobal Flags:\n" ++ flagLines p.flags ++ "\n"

def usage (p : Program) (flags : List Flag) : String :=
  let commands := p.commands.mergeSort fun a b => a.name ≤ b.name
  let width := (commands.map (·.name.length)).foldl max 11
  "Usage:\n  " ++ p.name ++ " [command]\n\nAvailable Commands:" ++
    String.join (commands.map fun c => "\n  " ++ padName width c.name ++ " " ++ c.short) ++
    "\n\nFlags:\n" ++ flagLines flags ++
    "\n\nUse \"" ++ p.name ++ " [command] --help\" for more information about a command.\n"

def introduced (long usage : String) : String :=
  (if long.isEmpty then "" else trimEndWith isSpace long ++ "\n\n") ++ usage

def commandHelp (p : Program) (c : Command) : String :=
  introduced (if c.long.isEmpty then c.short else c.long) (p.commandUsage c)

def help (p : Program) : String := introduced p.long (p.usage (helpFlag p.name :: p.flags))

end Program
end CallFusion.Cli
