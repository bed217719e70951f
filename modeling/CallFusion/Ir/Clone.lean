import CallFusion.Ir.CallSite
import CallFusion.Ir.Numbering

/-!
Copies of a function under another parameter list. A parameter whose type agrees with the new one
at its position is the new one; a parameter without a counterpart may only be used by debug slots.
-/
namespace CallFusion.Ir

namespace Function

def hasParam (f : Function) (i : Nat) (t : Ty) : Bool := ((f.params[i]?).map (·.type.same t)).getD false

/-- The parameters of a copy: those that agree keep their number and name, the others are new. -/
def paramsFor (f : Function) (types : List Ty) : List Param :=
  types.zipIdx.map fun (t, i) =>
    match f.params[i]? with
    | some p =>
      if p.type.same t then ⟨p.id, p.ident.clearNumber, t, []⟩ else ⟨f.freshId + i, .number 0, t, []⟩
    | none => ⟨f.freshId + i, .number 0, t, []⟩

def orphans (f : Function) (types : List Ty) : List Param :=
  (f.params.zipIdx.filter fun (p, i) => !((types[i]?).map fun t => p.type.same t).getD false).map (·.1)

def isOrphan (orphans : List Param) (v : Value) : Bool := orphans.any fun p => p.value.same v

/-- What a slot of a copy holds: an undefined value where a debug slot held an orphan, and the copy's own
parameter where the slot held the one it is made from. -/
def carryOver (params orphans : List Param) (debug : Bool) (v : Value) : Value :=
  if debug && isOrphan orphans v then .const 0 (.undef v.type)
  else ((params.find? fun p => p.value.same v).map Param.value).getD v

/-- The function under another signature, name and symbol number, while its slots still hold the old
parameters. -/
def retyped (f : Function) (types : List Ty) (name : String) (id : SymbolId) : Function :=
  { id := id
    symbol := .ofName name
    result := f.result
    params := f.paramsFor types
    linkage := f.linkage
    visibility := f.visibility
    convention := f.convention
    resultAttrs := f.resultAttrs
    attrs := f.attrs
    sectionName := f.sectionName
    collector := f.collector
    personality := f.personality
    attachments := f.attachments
    blocks := f.blocks }

/-- A copy of the function with the given parameter types, name and symbol number. -/
def withSignature (f : Function) (types : List Ty) (name : String) (id : SymbolId) : Except Fault Function :=
  if f.isDeclaration then
    .error (.structural ("'" ++ f.name ++ "' is a declaration and has no body to clone"))
  else
    let lost := f.orphans types
    match f.operands.find? fun o => !o.debug && isOrphan lost o.value with
    | some o =>
      let shown := ((o.value.local?).map fun id => (f.identOf id).text).getD ""
      .error (.structural ("'" ++ f.name ++ "' uses parameter " ++ shown ++
        " which has no counterpart in the new signature"))
    | none => .ok ((f.retyped types name id).mapOperands (carryOver (f.paramsFor types) lost)).clearNumbers

def cloneOf (source : Option Function) (types : List Ty) (name : String) (id : SymbolId) : Except Fault Function :=
  match source with
  | none => .error (.functionNotFound name)
  | some f => f.withSignature types name id

def setParamAttrs (params : List Param) (i : Nat) (attrs : List String) : List Param :=
  params.modify i fun p => { p with attrs := attrs }

def copyParamAttrs (target : Function) (f : Function) (pos : Int) (i : Nat) : Function :=
  let source := if f.id = target.id then f else target
  if pos < 0 then f
  else match source.params[pos.toNat]? with
    | some p => { f with params := setParamAttrs f.params i p.attrs }
    | none => f

/-- Takes over from the function called before: result attributes when the result types agree, and
the attributes of the parameter selected for each position. -/
def copyCallAttributes (f target : Function) (positions : List Int) : Function :=
  let g := { f with resultAttrs := if f.result.same target.result then target.resultAttrs else f.resultAttrs }
  positions.zipIdx.foldl (fun g (pos, i) => copyParamAttrs target g pos i) g

def detachSubprogram? (f : Function) : Option Function :=
  if f.attachments.any (·.name == "dbg") then
    some { f with attachments := f.attachments.eraseP (·.name == "dbg") }
  else none

end Function
end CallFusion.Ir
