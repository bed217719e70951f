import CallFusion.Locator
import CallFusion.Merge.Profile
import CallFusion.Merge.Mode

/-!
Renaming the halves of a split program. New names are checked to be distinct among functions before
the first function is renamed.
-/
namespace CallFusion

open Ir

/-- New names for functions, by symbol; a function without an entry keeps its name. -/
abbrev Renaming := List (SymbolId × String)

namespace Renaming

def nameFor (r : Renaming) (f : Function) : String :=
  ((List.find? (fun e => e.1 == f.id) r).map (·.2)).getD f.name

/-- What a function is called after renaming; one that is shown under its new name already stays. -/
def identFor (r : Renaming) (f : Function) : Ident :=
  if r.nameFor f = f.name then f.symbol else .ofName (r.nameFor f)

/-- The first clash: two functions that would get one name. `taken` holds the names given so far. -/
def clashIn (r : Renaming) (taken : List (String × Function)) : List Function → Option (Function × Function × String)
  | [] => none
  | f :: fs =>
    let name := r.nameFor f
    match taken.find? (·.1 == name) with
    | some (_, other) => some (other, f, name)
    | none => clashIn r ((name, f) :: taken) fs

def clash? (r : Renaming) (m : Module) : Option (Function × Function × String) := r.clashIn [] m.functions

def applyTo (r : Renaming) (m : Module) : Module :=
  { m with functions := m.functions.map fun f => { f with symbol := r.identFor f } }

def count (r : Renaming) (m : Module) : Nat := (m.functions.filter fun f => r.nameFor f != f.name).length

def run (r : Renaming) (mode : Mode) (found : Diagnostics) (m : Module) : Module × Outcome :=
  match r.clash? m with
  | some (a, b, name) =>
    (m, { mode := mode, diagnostics := found ++ [.structural ("renaming would give '" ++ a.name ++ "' and '" ++
      b.name ++ "' the same name '" ++ name ++ "'")] })
  | none =>
    let n := r.count m
    (r.applyTo m, { mode := mode, changed := n > 0, diagnostics := found, stats := { renamed := n } })

end Renaming

def callerRenaming (m : Module) (caller : String) : Renaming :=
  (m.functions.filter (!isIntrinsic ·.name)).map fun f => (f.id, f.name ++ "_" ++ caller)

/-- Names for the entry chain of a callee half: a later entry of the list gives way to an earlier. -/
def specialNames (p : Profile) (callee : String) (entry target : Function) (start : Option Function) : Renaming :=
  (target.id, p.realCalleeName callee) :: (entry.id, p.entryName callee) ::
    match p.runtimeStartName? callee, start with
    | some name, some s => [(s.id, name)]
    | _, _ => []

/-- Special names for the entry chain, and the callee's name appended to every other function. -/
def calleeRenaming (m : Module) (p : Profile) (callee : String) (entry target : Function)
    (start : Option Function) : Renaming :=
  let special := specialNames p callee entry target start
  (m.functions.filter (!isIntrinsic ·.name)).map fun f =>
    (f.id, ((special.find? (·.1 == f.id)).map (·.2)).getD (f.name ++ "_" ++ callee))

def renameCaller (caller : String) (m : Module) : Module × Outcome :=
  if caller.isEmpty then
    (m, { mode := .renameCaller,
          diagnostics := [.precondition "rename-caller: didn't specify caller name"] })
  else (callerRenaming m caller).run .renameCaller [] m

def renameCallee (p : Profile) (callee : String) (m : Module) : Module × Outcome :=
  let stop := fun (ds : Diagnostics) => (m, ({ mode := .renameCallee, diagnostics := ds } : Outcome))
  if callee.isEmpty then stop [.precondition "rename-callee: didn't specify callee name"]
  else match m.findFunction "main" with
    | none => stop [.notFound "function 'main' not found"]
    | some entry =>
      match findBootstrap m entry with
      | (none, ds) =>
        stop (ds ++ [.notFound "no call in 'main' passes the real entry point as its first argument"])
      | (some boot, ds) =>
        let start := findRuntimeStart m entry
        (calleeRenaming m p callee entry boot.target start).run .renameCallee ds m

end CallFusion
