import CallFusion.Ir.Payload
import CallFusion.Locator
import CallFusion.Merge.Profile

/-!
The RPC stub call that a merge replaces: which functions may hold it, and the first of them that
does.
-/
namespace CallFusion

open Ir

structure RpcSite where
  caller : Function
  site : CallSite

def CallSite.select? (site : CallSite) (positions : List Nat) : Option (List (Argument Value)) :=
  positions.mapM site.arg?

def distinctBodies : List Function → List Function :=
  List.foldl (fun acc f => if f.isDeclaration || acc.any (·.id == f.id) then acc else acc ++ [f]) []

/-- Functions that may hold the stub call, in order of preference: the merged caller, the real
entry behind the renamed caller's main, then the profile's default caller. -/
def callerCandidates (m : Module) (p : Profile) (caller : String) : List Function :=
  let named := if caller.isEmpty then []
    else (m.findFunction (p.mergedCalleeName caller)).toList ++
      (((m.findFunction ("main_" ++ caller)).bind fun entry => (findBootstrap m entry).1).map (·.target)).toList
  let byDefault := if p.defaultCaller.isEmpty then []
    else (m.findFunction p.defaultCaller).toList ++
      (if caller.isEmpty then [] else (m.findFunction (p.defaultCaller ++ "_" ++ caller)).toList)
  distinctBodies (named ++ byDefault)

def callerPlaces (p : Profile) (caller : String) : List String :=
  (if caller.isEmpty then []
    else ["'" ++ p.mergedCalleeName caller ++ "'", "entry of 'main_" ++ caller ++ "'"]) ++
  (if p.defaultCaller.isEmpty then [] else ["'" ++ p.defaultCaller ++ "'"])

/-- Whether a site calls the stub, for this callee if the stub names one. -/
def isRpcFor (m : Module) (f : Function) (p : Profile) (callee : String) (site : CallSite) (logical : String) : Bool :=
  p.matchesStub logical &&
    match p.nameOperand with
    | none => true
    | some i =>
      match (site.arg? i).bind Argument.value? with
      | some v => m.stringOperand? f v == some (Text.bytes callee)
      | none => false

variable {σ : Type}

def rpcIn (bridge : Bridge σ) (m : Module) (p : Profile) (callee : String) :
    List Function → StateM (Locator σ) (Option RpcSite)
  | [] => return none
  | f :: fs => do
    match ← Locator.findMatch bridge m f .any (isRpcFor m f p callee) with
    | some site => return some ⟨f, site⟩
    | none => rpcIn bridge m p callee fs

/-- The stub call to replace, or why there is none. -/
def findRpc (bridge : Bridge σ) (m : Module) (p : Profile) (caller callee : String) :
    StateM (Locator σ) (Except Diagnostic RpcSite) := do
  let candidates := callerCandidates m p caller
  if candidates.isEmpty then
    return .error (.notFound ("caller function not found (tried " ++ ", ".intercalate (callerPlaces p caller) ++ ")"))
  match ← rpcIn bridge m p callee candidates with
  | some rpc => return .ok rpc
  | none =>
    let places := candidates.map fun f => "'" ++ f.name ++ "'"
    let what := if p.nameOperand.isSome then p.stub ++ " for '" ++ callee ++ "'" else p.stub
    return .error (.notFound ("no " ++ what ++ " call site in " ++ ", ".intercalate places))

end CallFusion
