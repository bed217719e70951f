import CallFusion.Settings

/-!
Project files: a settings file with the profile and the demangler of a project, and lines that keep
the local cache out of version control. A short dialogue may ask for both choices.
-/
namespace CallFusion

open Text

structure ScaffoldOptions where
  force : Bool := false
  profile : String := ""
  demangler : String := ""
  deriving DecidableEq, Repr, Inhabited

namespace ScaffoldOptions

def orDefault (choice standard : String) : String :=
  if (trim choice).isEmpty then standard else trim choice

def chosenProfile (o : ScaffoldOptions) : String := orDefault o.profile "go"

def chosenDemangler (o : ScaffoldOptions) : String := orDefault o.demangler DemanglerKind.inProcess.text

def validate (o : ScaffoldOptions) : Except Fault Unit :=
  let s := Settings.standard ""
  let s := if o.profile.isEmpty then s else { s with profile := o.profile }
  let s := if o.demangler.isEmpty then s else { s with demangler := .ofName o.demangler }
  s.validate.map fun _ => ()

def settingsText (o : ScaffoldOptions) : String :=
  "# rpcmerge project configuration\n" ++
  "# RPCMERGE_* environment variables override these values.\n" ++
  "\n" ++
  "profile = " ++ quoted o.chosenProfile ++ "\n" ++
  "demangler = " ++ quoted o.chosenDemangler ++ "\n" ++
  "log_level = \"info\"\n" ++
  "cache_path = \".rpcmerge/cache.db\"\n" ++
  "history_enabled = true\n" ++
  "\n" ++
  "# Marshalling buffer copied when the payload type cannot be recovered\n" ++
  "# payload_size = 24\n" ++
  "# payload_align = 8\n"

def ignoreMarker : String := "# rpcmerge local artifacts"

def ignoreBlock : String := ignoreMarker ++ "\n.rpcmerge/\n"

/-- A list of ignored files with the project's block at its end; none if it has the block. -/
def withIgnoreBlock? (content : String) : Option String :=
  if (content.splitOn ignoreMarker).length != 1 then none
  else
    let content := if content.isEmpty || content.endsWith "\n" then content else content ++ "\n"
    some (content ++ "\n" ++ ignoreBlock)

end ScaffoldOptions

structure Dialogue where
  input : List Char
  output : String := ""
  deriving Repr, Inhabited

namespace Dialogue

def readLine : StateM Dialogue String := fun d =>
  let line := d.input.takeWhile (· != '\n')
  (String.ofList line, { d with input := d.input.drop (line.length + 1) })

def say (text : String) : StateM Dialogue Unit := modify fun d => { d with output := d.output ++ text }

/-- Asks for something; a blank answer stands for what is offered. -/
def prompt (question offered : String) : StateM Dialogue String := do
  say (question ++ " [" ++ offered ++ "]: ")
  let answer := trim (← readLine)
  return if answer.isEmpty then offered else answer

def choices (o : ScaffoldOptions) : StateM Dialogue ScaffoldOptions := do
  say "rpcmerge init\nPress Enter to accept defaults.\n"
  let profile ← prompt "Toolchain profile (go, rust)" o.chosenProfile
  let demangler ← prompt "Demangler (local, command, remote)" o.chosenDemangler
  return { o with profile := profile, demangler := demangler }

end Dialogue
end CallFusion
