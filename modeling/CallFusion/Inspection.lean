import CallFusion.Ir.Payload
import CallFusion.Locator
import CallFusion.Merge.Profile
import CallFusion.Text.Columns

/-!
A listing of a module: its functions with their logical names, then its call sites with their
targets and what marks them as RPC stubs.
-/
namespace CallFusion

open Ir

def Ir.Function.kindText (f : Function) : String :=
  if isIntrinsic f.name then "intrinsic" else if f.isDeclaration then "declare" else "define"

namespace Inspection

variable {σ : Type}

/-- Whether a call site is a stub of the profile, with the callee's name where the stub carries it. -/
def stubMark (m : Module) (f : Function) (p : Profile) (site : CallSite) (logical : String) : String :=
  if logical.isEmpty || !p.matchesStub logical then "-"
  else match p.nameOperand with
    | none => "yes"
    | some i =>
      match ((site.arg? i).bind Argument.value?).bind (m.stringOperand? f) with
      | some name => "yes (" ++ Text.ofBytes name ++ ")"
      | none => "yes (unnamed)"

def functionRow (bridge : Bridge σ) (f : Function) : StateM (Locator σ) String :=
  return f.name ++ "\t" ++ f.kindText ++ "\t" ++ (← Locator.logical bridge f.name) ++ "\n"

def siteRow (bridge : Bridge σ) (m : Module) (p : Profile) (f : Function) (site : CallSite) :
    StateM (Locator σ) String := do
  let (target, logical) ← match m.calledFunction? f site with
    | some callee => pure (callee.name, ← Locator.logical bridge callee.name)
    | none => pure ("<indirect>", "")
  let block := (f.identOf site.block).shown
  return "\t".intercalate
    [f.name, block, site.kind.text, target, logical, stubMark m f p site logical] ++ "\n"

def text (bridge : Bridge σ) (m : Module) (p : Profile) : StateM (Locator σ) String := do
  let functions ← m.functions.mapM (functionRow bridge)
  let sites ← m.functions.mapM fun f => f.callSites.mapM (siteRow bridge m p f)
  return Text.align ("FUNCTION\tKIND\tLOGICAL\n" ++ String.join functions) ++ "\n" ++
    Text.align ("CALLER\tBLOCK\tKIND\tTARGET\tLOGICAL\tRPC\n" ++ String.join sites.flatten)

end Inspection
end CallFusion
