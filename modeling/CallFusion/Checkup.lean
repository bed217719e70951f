import CallFusion.Settings

/-!
A check of the surroundings: what the tool relies on, whether it is there, and what to do if not.
-/
namespace CallFusion

open Text

structure Dependency where
  name : String
  installed : Bool := false
  optional : Bool := false
  version : String := ""
  path : String := ""
  hint : String := ""
  deriving DecidableEq, Repr, Inhabited

namespace Dependency

def passes (d : Dependency) : Bool := d.installed || d.optional

def mark (d : Dependency) : String :=
  if d.installed then "[OK]" else if d.optional then "[WARN]" else "[FAIL]"

def report (verbose : Bool) (d : Dependency) : String :=
  d.mark ++ " " ++ d.name ++ (if d.installed && d.version != "" then " (" ++ d.version ++ ")" else "") ++ "\n" ++
    (if verbose && d.path != "" then "  Path: " ++ d.path ++ "\n" else "") ++
    (if !d.installed && d.hint != "" then "  -> " ++ d.hint ++ "\n" else "")

def table (verbose : Bool) (ds : List Dependency) : String := String.join (ds.map (report verbose)) ++ "\n"

def versionIn : List String → Option String
  | "version" :: v :: _ => some v
  | _ :: rest => versionIn rest
  | [] => none

def toolVersion (banner : String) : String :=
  ((splitChar '\n' banner).findSome? fun line => versionIn (words line)).getD ""

def ofSettings (s : Settings) : Dependency :=
  match s.validate with
  | .error fault => { name := "Configuration", hint := fault.message }
  | .ok s => { name := "Configuration", installed := true, version := "profile " ++ s.profile }

end Dependency
end CallFusion
