import CallFusion.Ir.Clone
import CallFusion.Ir.References
import CallFusion.Merge.Marshalling
import CallFusion.Merge.Rename
import CallFusion.Merge.Rpc

/-!
One run over a module. Every mode resolves and checks what it needs before its first edit, reports
what it found, and never fails.
-/
namespace CallFusion

open Ir

structure Options where
  mode : Mode
  caller : String := ""
  callee : String := ""
  /-- No profile means the Go profile. -/
  profile : Option KnownProfile := none
  /-- Takes the place of the profile's payload unless its size is zero. -/
  payload : Payload := ⟨0, 0⟩

/-- The profile a run uses: replacing the stub is bound to the Go profile. -/
def Options.effectiveProfile (o : Options) : Profile :=
  let base := if o.mode = .replaceStub then .go else (o.profile.map (·.toProfile)).getD .go
  if o.payload.size = 0 then base else { base with payload := o.payload }

def positionsText (ps : List Nat) : String := "[" ++ " ".intercalate (ps.map toString) ++ "]"

def resultConflict? (m : Module) (rpc : RpcSite) (f : Function) : Option Diagnostic :=
  let old := rpc.site.value
  if old.type.same f.result || (rpc.caller.codeUses old).isEmpty then none
  else some (.structural ("RPC result " ++ rpc.caller.identText m old ++ " of type " ++ old.type.text ++
    " is used but '" ++ f.name ++ "' returns " ++ f.result.text))

def replaceRpc (m : Module) (rpc : RpcSite) (target : Function) (args : List (Argument Value)) :
    Module × Option Diagnostic :=
  match rpc.caller.replaceCallSite m rpc.site { callee := target.value, args := args } target.result
      rpc.site.attachments with
  | (caller, none) => (m.setFunction caller, none)
  | (caller, some e) =>
    (m.setFunction caller,
      some (.structural ("cannot replace RPC call in '" ++ rpc.caller.name ++ "': " ++ e.message)))

def missingArgs (rpc : RpcSite) (p : Profile) : Diagnostic :=
  .precondition ("RPC call in '" ++ rpc.caller.name ++ "' has " ++ toString rpc.site.args.length ++
    " arguments; positions " ++ positionsText p.positions ++ " are required")

/-- Erases a function of the callee's entry chain if nothing refers to it any more. A source that
stays keeps its debug subprogram, which the clone then gives up. -/
def eraseDoomed (merged : SymbolId) (source : SymbolId) (state : Module × Outcome) (doomed : Function) :
    Module × Outcome :=
  let (m, o) := state
  match m.removeFunction? doomed.id with
  | some m => (m, { o with stats := { o.stats with erased := o.stats.erased + 1 } })
  | none =>
    let kept : Diagnostics := [.note ("'" ++ doomed.name ++ "' is still referenced and was kept")]
    match (if doomed.id = source then (m.function? merged).bind fun f => f.detachSubprogram? else none) with
    | some f =>
      (m.setFunction f, { o with diagnostics := o.diagnostics ++ kept ++
        [.note ("'" ++ doomed.name ++ "' keeps its debug subprogram; dropped it from '" ++ f.name ++ "'")] })
    | none => (m, { o with diagnostics := o.diagnostics ++ kept })

/-- What a merge works with, found and checked before its first edit. -/
structure MergePlan where
  source : Function
  rpc : RpcSite
  args : List (Argument Value)
  clone : Function
  /-- None when the marshalling calls have to stay. -/
  marshalling : Option MarshallingPlan
  found : Diagnostics

def MergePlan.target (plan : MergePlan) (p : Profile) (m : Module) : Function :=
  match m.calledFunction? plan.rpc.caller plan.rpc.site with
  | some stub => plan.clone.copyCallAttributes stub (p.positions.map Int.ofNat)
  | none => plan.clone

def elideMarshalling (merged : String) (marshalling : Option MarshallingPlan) (state : Module × Outcome) :
    Module × Outcome :=
  let (m, o) := state
  match marshalling with
  | none => (m, o)
  | some plan =>
    let (m, n, failed) := plan.apply m
    let stopped : Diagnostics := match failed with
      | some e => [.structural ("marshalling elision in '" ++ merged ++ "' stopped: " ++ e.message)]
      | none => []
    (m, { o with stats := { o.stats with elided := n }, diagnostics := o.diagnostics ++ stopped })

/-- The callee half's entry chain: its entry, its runtime start and the function that was cloned. -/
def entryChain (p : Profile) (callee : String) (source : Function) (m : Module) : List Function :=
  (m.findFunction (p.entryName callee)).toList ++
    ((p.runtimeStartName? callee).bind m.findFunction).toList ++ [source]

def commitMerge (p : Profile) (callee : String) (plan : MergePlan) (m : Module) : Module × Outcome :=
  let clone := plan.target p m
  let o : Outcome := { mode := .mergeCallee, changed := true, diagnostics := plan.found, stats := { cloned := 1 } }
  match replaceRpc (m.addFunction clone) plan.rpc clone plan.args with
  | (m, some d) => (m, { o with diagnostics := o.diagnostics ++ [d] })
  | (m, none) =>
    let o := { o with stats := { o.stats with replaced := 1 } }
    let (m, o) := elideMarshalling clone.name plan.marshalling (m, o)
    (entryChain p callee plan.source m).foldl (eraseDoomed clone.id plan.source.id) (m, o)

variable {σ : Type}

/-- Finds and checks what a merge needs, or says what is missing. Nothing is edited. -/
def planMerge (bridge : Bridge σ) (p : Profile) (caller callee : String) (m : Module) :
    StateM (Locator σ) (Except Diagnostic MergePlan) := do
  if caller.isEmpty then return .error (.precondition "merge-callee: didn't specify caller name")
  if callee.isEmpty then return .error (.precondition "merge-callee: didn't specify callee name")
  let mergedName := p.mergedCalleeName callee
  match m.findFunction (p.realCalleeName callee) with
  | none => return .error (.notFound ("function '" ++ p.realCalleeName callee ++ "' not found"))
  | some source =>
    if (m.findFunction mergedName).isSome then
      return .error
        (.structural ("'" ++ mergedName ++ "' already exists; callee '" ++ callee ++ "' was merged before"))
    match ← findRpc bridge m p caller callee with
    | .error d => return .error d
    | .ok rpc =>
      match CallSite.select? rpc.site p.positions with
      | none => return .error (missingArgs rpc p)
      | some args =>
        match source.withSignature (args.map (·.type)) mergedName m.freshSymbol with
        | .error e => return .error (.structural ("cannot clone '" ++ source.name ++ "': " ++ e.message))
        | .ok clone =>
          match resultConflict? m rpc clone with
          | some d => return .error d
          | none =>
            let (marshalling, found) ← MarshallingPlan.make bridge m (some clone) p.marshalling p.payload
            return .ok ⟨source, rpc, args, clone, marshalling, found⟩

/-- Clones the renamed callee into a function the caller can call, points the stub call at it and
removes the callee half's entry chain. -/
def mergeCallee (bridge : Bridge σ) (p : Profile) (caller callee : String) (m : Module) :
    StateM (Locator σ) (Module × Outcome) := do
  match ← planMerge bridge p caller callee m with
  | .error d => return (m, { mode := .mergeCallee, diagnostics := [d] })
  | .ok plan => return commitMerge p callee plan m

def paramConflict? (target : Function) (args : List (Argument Value)) : Option Diagnostic :=
  if target.params.length != args.length then
    some (.structural ("'" ++ target.name ++ "' takes " ++ toString target.params.length ++ " parameters but " ++
      toString args.length ++ " RPC arguments are selected"))
  else
    (target.params.zip args).zipIdx.findSome? fun ((param, arg), i) =>
      if param.type.same arg.type then none
      else some (.structural ("parameter " ++ toString i ++ " of '" ++ target.name ++ "' is " ++ param.type.text ++
        " but the RPC passes " ++ arg.type.text))

structure Redirection where
  rpc : RpcSite
  target : Function
  args : List (Argument Value)

/-- Finds the stub call and the callee merged by an earlier run, and checks that the one can call
the other. -/
def findRedirection (bridge : Bridge σ) (mode : Mode) (p : Profile) (caller callee : String) (m : Module) :
    StateM (Locator σ) (Except Diagnostic Redirection) := do
  if p.nameOperand.isSome && callee.isEmpty then
    return .error (.precondition (mode.text ++ ": didn't specify callee name"))
  let tried := (if callee.isEmpty then [] else [p.mergedCalleeName callee]) ++
    (if p.existingCallee.isEmpty then [] else [p.existingCallee])
  match tried.findSome? m.findFunction with
  | none => return .error (.notFound ("no merged callee found (tried '" ++ "', '".intercalate tried ++ "')"))
  | some target =>
    match ← findRpc bridge m p caller callee with
    | .error d => return .error d
    | .ok rpc =>
      match CallSite.select? rpc.site p.positions with
      | none => return .error (missingArgs rpc p)
      | some args =>
        match paramConflict? target args <|> resultConflict? m rpc target with
        | some d => return .error d
        | none => return .ok ⟨rpc, target, args⟩

def mergeExisting (bridge : Bridge σ) (mode : Mode) (p : Profile) (caller callee : String) (m : Module) :
    StateM (Locator σ) (Module × Outcome) := do
  match ← findRedirection bridge mode p caller callee m with
  | .error d => return (m, { mode := mode, diagnostics := [d] })
  | .ok r =>
    match replaceRpc m r.rpc r.target r.args with
    | (m, none) => return (m, { mode := mode, changed := true, stats := { replaced := 1 } })
    | (m, some d) => return (m, { mode := mode, diagnostics := [d] })

def runMode (bridge : Bridge σ) (o : Options) (m : Module) : StateM (Locator σ) (Module × Outcome) :=
  let p := o.effectiveProfile
  match o.mode with
  | .renameCaller => return renameCaller o.caller m
  | .renameCallee => return renameCallee p o.callee m
  | .mergeCallee => mergeCallee bridge p o.caller o.callee m
  | .mergeExisting => mergeExisting bridge .mergeExisting p o.caller o.callee m
  | .replaceStub => mergeExisting bridge .replaceStub p o.caller o.callee m
  | .unknown n =>
    return (m, { mode := .unknown n, diagnostics := [.precondition "no transformation mode selected"] })

/-- Runs a mode with a fresh locator; the bridge's state comes back with the result. -/
def run (bridge : Bridge σ) (state : σ) (o : Options) (m : Module) : (Module × Outcome) × σ :=
  let ((m, outcome), l) := (runMode bridge o m).run (Locator.new [o.caller, o.callee] state)
  ((m, { outcome with diagnostics := outcome.diagnostics ++ l.diagnostics }), l.bridge)

end CallFusion
