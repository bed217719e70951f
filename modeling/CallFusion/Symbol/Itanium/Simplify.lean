import CallFusion.Symbol.Itanium.Node

/-!
Simpler components of the same meaning: parameters give way to their arguments, references to
references collapse, qualifiers meet in one place, and expansions are written out.
-/
namespace CallFusion.Symbol.Itanium

def mergeQualifiers (first second : List Node) : List Node :=
  if first.isEmpty then second
  else second.foldl (fun acc q => if q.parts.isEmpty && acc.any (fun p => p.parts.isEmpty && p.form == q.form)
    then acc else acc ++ [q]) first

/-- The reference qualifier of two: a plain reference wins. -/
def mergeRefs (outer inner : String) : String :=
  if outer.isEmpty then inner
  else if inner.isEmpty then outer
  else if outer == "&" || inner == "&" then "&" else outer

def collapse : Node → Node
  | ⟨.param _, [arg]⟩ => arg
  | ⟨.method ref _, ⟨.method inner _, base :: qs'⟩ :: qs⟩ =>
    ⟨.method (mergeRefs ref inner) none, base :: mergeQualifiers qs qs'⟩
  | ⟨.method ref _, ⟨.qualifiedType, base :: qs'⟩ :: qs⟩ => ⟨.method ref none, base :: mergeQualifiers qs qs'⟩
  | ⟨.qualifiedType, ⟨.function r l, ts⟩ :: qs⟩ => ⟨.method "" none, ⟨.function r l, ts⟩ :: qs⟩
  | ⟨.qualifiedType, ⟨.qualifiedType, base :: qs'⟩ :: qs⟩ => ⟨.qualifiedType, base :: mergeQualifiers qs qs'⟩
  | ⟨.qualifiedType, ⟨.method ref _, base :: qs'⟩ :: qs⟩ => ⟨.method ref none, base :: mergeQualifiers qs qs'⟩
  | ⟨.reference, [⟨.reference, t⟩]⟩ => ⟨.reference, t⟩
  | ⟨.reference, [⟨.rvalue, t⟩]⟩ => ⟨.reference, t⟩
  | ⟨.reference, [⟨.doubled false id, t⟩]⟩ => ⟨.doubled false id, t⟩
  | ⟨.reference, [⟨.doubled true _, t⟩]⟩ => ⟨.reference, t⟩
  | ⟨.rvalue, [⟨.rvalue, t⟩]⟩ => ⟨.rvalue, t⟩
  | ⟨.rvalue, [⟨.reference, t⟩]⟩ => ⟨.reference, t⟩
  | ⟨.rvalue, [⟨.doubled isRvalue id, t⟩]⟩ => ⟨.doubled isRvalue id, t⟩
  | ⟨.array, [dimension, ⟨.qualifiedType, base :: qs⟩]⟩ => ⟨.qualifiedType, ⟨.array, [dimension, base]⟩ :: qs⟩
  | n => n

def referenceForm (isRvalue : Bool) : Form := if isRvalue then .rvalue else .reference

mutual
/-- Makes references to references collapse where they are met first; where one is met again it stays
as it is. `met` are those met so far. -/
def Node.release (met : List Nat) : Node → List Nat × Node
  | ⟨.doubled isRvalue id, parts⟩ =>
    if met.contains id then (met, ⟨.doubled isRvalue id, parts⟩)
    else
      let (met, parts) := releaseAll (id :: met) parts
      (met, ⟨referenceForm isRvalue, parts⟩)
  | ⟨.param index, args⟩ => (met, ⟨.param index, args⟩)
  | ⟨.expansion, pattern :: pack⟩ =>
    let (met, pattern) := pattern.release met
    (met, ⟨.expansion, pattern :: pack⟩)
  | ⟨form, parts⟩ =>
    let (met, parts) := releaseAll met parts
    (met, ⟨form, parts⟩)

def releaseAll (met : List Nat) : List Node → List Nat × List Node
  | [] => (met, [])
  | n :: ns =>
    let (met, n) := n.release met
    let (met, ns) := releaseAll met ns
    (met, n :: ns)
end

def Node.qualifiers : Node → List Node
  | ⟨.qualifiedType, _ :: qs⟩ => qs
  | ⟨.method _ _, _ :: qs⟩ => qs
  | _ => []

def Node.unqualified : Node → Node
  | ⟨.qualifiedType, base :: _⟩ => base
  | ⟨.method ref _, base :: _⟩ => ⟨.method ref none, [base]⟩
  | n => n

mutual
/-- Puts one item in the place of the pack it comes from, the first time that the pack is met; `used`
says that it was met. Qualifiers of the pack gather those of all its items. -/
def Node.pick (id : Nat) (items : List Node) (item : Node) (used : Bool) : Node → Bool × Node
  | ⟨.expansion, parts⟩ => (used, ⟨.expansion, parts⟩)
  | ⟨.pack k, parts⟩ =>
    if k = id then if used then (true, ⟨.pack k, parts⟩) else (true, item)
    else
      let (used, parts) := pickAll id items item used parts
      (used, ⟨.pack k, parts⟩)
  | ⟨.qualifiedType, base :: qs⟩ =>
    if base.form == .pack id && !used then
      (true, ⟨.qualifiedType, item.unqualified :: items.foldl (fun qs i => mergeQualifiers qs i.qualifiers) qs⟩)
    else
      let (used, base) := Node.pick id items item used base
      let (used, qs) := pickAll id items item used qs
      (used, ⟨.qualifiedType, base :: qs⟩)
  | ⟨form, parts⟩ =>
    let (used, parts) := pickAll id items item used parts
    (used, ⟨form, parts⟩)

def pickAll (id : Nat) (items : List Node) (item : Node) (used : Bool) : List Node → Bool × List Node
  | [] => (used, [])
  | n :: ns =>
    let (used, n) := Node.pick id items item used n
    let (used, ns) := pickAll id items item used ns
    (used, n :: ns)
end

def expand : Node → Node
  | ⟨.expansion, [pattern, ⟨.pack id, items⟩]⟩ =>
    .list (items.map fun item =>
      let picked := (Node.pick id items item false pattern).2
      (picked.release []).2.everywhere (fun _ => false) collapse)
  | n => collapse n

def Node.simplify (n : Node) : Node := (n.release []).2.everywhere (fun _ => false) expand

mutual
def Node.settled (shared : List (Nat × List Node)) : Node → Node
  | ⟨.method ref cell, base :: qs⟩ =>
    ⟨.method ref cell, base.settled shared :: ((cell.bind fun id => shared.lookup id).getD (settledAll shared qs))⟩
  | ⟨form, parts⟩ => ⟨form, settledAll shared parts⟩

def settledAll (shared : List (Nat × List Node)) : List Node → List Node
  | [] => []
  | n :: ns => n.settled shared :: settledAll shared ns
end

/-- The template around a repeated component: none, one whose arguments are still to come, or one
with its arguments. -/
abbrev Enclosing := Option (Option (List Node))

structure Site where
  enclosing : Enclosing
  inLambda : Bool
  inConstraint : Bool

/-- The parameter at an index, as it is written at a site; a lambda's parameters are its own, and a
constraint has them by number. -/
def Site.param? (site : Site) (index : Nat) : Option Node :=
  if site.inConstraint then some (.name ("T" ++ toString index))
  else if site.inLambda then some (.leaf (.autoParam index))
  else do
    match ← site.enclosing with
    | none => return ⟨.param index, []⟩
    | some args => return ⟨.param index, [← args[index]?]⟩

def Site.within (site : Site) (args : List Node) : Site := { site with enclosing := some (some args), inLambda := false }

def Site.lambda (site : Site) : Site := { site with inLambda := true }

mutual
def Node.changesAt (site : Site) : Node → Bool
  | ⟨.param _, _⟩ => true
  | ⟨.autoParam _, _⟩ => site.inConstraint || !site.inLambda
  | ⟨.typed, [⟨.template, base :: args⟩, type]⟩ =>
    base.changesAt (site.within args) || anyChangesAt (site.within args) args || type.changesAt (site.within args)
  | ⟨.closure _, parts⟩ => anyChangesAt site.lambda parts
  | ⟨.expansion, pattern :: _⟩ => pattern.changesAt site
  | ⟨_, parts⟩ => anyChangesAt site parts

def anyChangesAt (site : Site) : List Node → Bool
  | [] => false
  | n :: ns => n.changesAt site || anyChangesAt site ns
end

def Form.unshared : Form → Form
  | .method ref _ => .method ref none
  | .doubled isRvalue _ => referenceForm isRvalue
  | form => form

mutual
/-- A component that is repeated elsewhere: its parameters belong to the site. -/
def Node.retarget? (site : Site) : Node → Option Node
  | ⟨.param index, _⟩ => site.param? index
  | ⟨.autoParam index, _⟩ => site.param? index
  | ⟨.typed, [⟨.template, base :: args⟩, type]⟩ => do
    let base' ← base.retarget? (site.within args)
    let args' ← retargetAll? (site.within args) args
    return ⟨.typed, [⟨.template, base' :: args'⟩, ← type.retarget? (site.within args)]⟩
  | ⟨.closure index, parts⟩ => return ⟨.closure index, ← retargetAll? site.lambda parts⟩
  | ⟨.expansion, pattern :: pack⟩ => return ⟨.expansion, (← pattern.retarget? site) :: pack⟩
  | ⟨form, parts⟩ => do
    let form := if anyChangesAt site parts then form.unshared else form
    return ⟨form, ← retargetAll? site parts⟩

def retargetAll? (site : Site) : List Node → Option (List Node)
  | [] => some []
  | n :: ns => return (← n.retarget? site) :: (← retargetAll? site ns)
end

mutual
def Node.openParams : Node → List (Nat × Bool)
  | ⟨.param index, args⟩ => [(index, !args.isEmpty)]
  | ⟨.closure _, _⟩ => []
  | ⟨.expansion, pattern :: _⟩ => pattern.openParams
  | ⟨_, parts⟩ => openParamsAll parts

def openParamsAll : List Node → List (Nat × Bool)
  | [] => []
  | n :: ns => n.openParams ++ openParamsAll ns
end

def Node.fill (args : List Node) (n : Node) : Node :=
  n.everywhere (fun f => match f with | .closure _ => true | _ => false) fun m =>
    match m with
    | ⟨.param index, []⟩ => ⟨.param index, args[index]?.toList⟩
    | m => m

end CallFusion.Symbol.Itanium
