import CallFusion.Proofs.Ir.Cloning
import CallFusion.Proofs.Ir.Declarations
import CallFusion.Proofs.Ir.Sites
import CallFusion.Proofs.Merge.Planning

/-!
Pointing a stub call at another function. The edit does not fail once the checks have passed, and the
module stays well formed as long as it declares that function.
-/

namespace CallFusion

open Ir

/-- The one instruction of a function that an earlier form of it has not: a direct call of `target` with
arguments that its parameters take, and with its result. -/
structure InsertedCall (f target g : Function) (i : Instruction) : Prop where
  listed : i ∈ g.instructions
  new : i.id ∉ f.localIds
  only : ∀ j ∈ g.instructions, j.id ∉ f.localIds → j = i
  call : ∃ c, i.op = .call "" c ∧ c.callee = target.value ∧ c.convention = "" ∧ target.Takes c.args
  result : i.type = target.result

theorem InsertedCall.of_same {f target other g h : Function} {i : Instruction} (inserted : InsertedCall f target g i)
    (blocks : h.blocks = g.blocks) (same : target.SameHead other) : InsertedCall f other h i where
  listed := by
    rw [Function.instructions, blocks]
    exact inserted.listed
  new := inserted.new
  only := by
    rw [Function.instructions, blocks]
    exact inserted.only
  call := by
    obtain ⟨c, op, callee, convention, takes⟩ := inserted.call
    exact ⟨c, op, callee.trans same.value.symm, convention, same.takes.mpr takes⟩
  result := inserted.result.trans same.result.symm

/-- A function in which a direct call of `target` has taken the place of a stub call. -/
structure Redirected (rpc : RpcSite) (args : List (Argument Value)) (target g : Function) : Prop where
  coherent : g.Coherent
  wellFormed : rpc.caller.WellFormed → g.WellFormed
  frame : g = { rpc.caller with blocks := g.blocks, dropped := g.dropped }
  names : ∀ id, g.Names id → rpc.caller.Names id ∨ id = target.id
  written : ∀ node, g.WritesOut node → rpc.caller.WritesOut node
  removed : rpc.site.id ∉ g.localIds
  placed : ∃ b ∈ g.blocks, b.id = rpc.site.block ∧ ∃ i ∈ b.insts, i.Calls target
  only : ∃ i ∈ g.instructions, i.id ∉ rpc.caller.localIds ∧ i.Calls target ∧
    ∀ j ∈ g.instructions, j.id ∉ rpc.caller.localIds → j = i
  inserted : rpc.caller.Typed → target.Takes args → ∃ i, InsertedCall rpc.caller target g i

section

variable {rpc : RpcSite} {m : Module} {args : List (Argument Value)} {target : Function}

theorem RpcSite.Replaceable.takes_renamed (replaceable : rpc.Replaceable m args target.result) (typed : rpc.caller.Typed)
    (takes : target.Takes args) (id : LocalId) :
    target.Takes (args.map (Argument.mapOperands (rpc.site.rename target.result (.local id target.result)))) := by
  have kept : ∀ a ∈ args, ∀ t : Ty, t.same a.type = true →
      t.same (a.mapOperands (rpc.site.rename target.result (.local id target.result))).type = true := by
    intro a passed t same
    cases a with
    | value attrs v =>
      have operand : .code v ∈ rpc.caller.operands :=
        replaceable.args _ (List.mem_flatMap.mpr ⟨_, passed, List.mem_singleton.mpr rfl⟩)
      rcases rpc.site.rename_cases target.result (.local id target.result) false v with
        ⟨_, stays⟩ | ⟨own, renamed | ⟨debug, _⟩⟩
      · simpa only [Argument.mapOperands, Argument.type, stays] using same
      · have result := typed _ operand _ (CallSite.value_mem_results replaceable.site) _ own rfl
        have agree : rpc.site.type.same target.result = true :=
          replaceable.free.resolve_right fun unused => unused _ operand rfl own
        have before : t.same rpc.site.type = true := by
          rw [Argument.type, show v = rpc.site.value from result] at same
          exact same
        simp only [Argument.mapOperands, Argument.type, renamed, Value.type]
        simp only [Ty.same, beq_iff_eq] at before agree ⊢
        exact before.trans agree
      · cases debug
    | debugValue v => exact same
    | debugList vs => exact same
    | debugNode n => exact same
  obtain ⟨lengths, paired⟩ := List.forall₂_iff_zip.mp takes
  refine List.forall₂_map_right_iff.mpr (List.forall₂_iff_zip.mpr ⟨lengths, fun {p a} pair => ?_⟩)
  exact kept a (List.of_mem_zip pair).2 p.type (paired pair)

theorem RpcSite.Replaceable.placed (replaceable : rpc.Replaceable m args target.result)
    (coherent : rpc.caller.Coherent) (n : Module) :
    ∃ (new : Instruction) (g : Function) (gone : List (LocalId × Ident)),
      new.op = .call "" { callee := target.value, args := args } ∧ new.type = target.result ∧ new.id ∉ rpc.caller.seen ∧
      (∀ v, rpc.caller.Holds v → v.local? ≠ some rpc.site.id → v.local? ≠ some new.id) ∧
      rpc.caller.Placed rpc.site new g ∧
      rpc.caller.replaceCallSite n rpc.site { callee := target.value, args := args } target.result rpc.site.attachments =
        ((g.mapOperands (rpc.site.rename target.result new.value)).note gone, none) := by
  obtain ⟨b, member, inside⟩ := List.mem_flatMap.mp replaceable.site
  obtain ⟨g, gone, placed, _, replaced⟩ := Function.replaceCallSite_placed coherent member
    (CallSite.heldBy_of_mem inside) (replaceable.accepts target) rpc.site.attachments n
  have unseen := rpc.caller.newcomer_unseen rpc.site { callee := target.value, args := args } target.result
    rpc.site.attachments
  exact ⟨_, g, gone, rfl, rfl, unseen, fun v held other => Function.newcomer_apart held other, placed, replaced⟩

theorem RpcSite.Replaceable.redirected (replaceable : rpc.Replaceable m args target.result)
    (coherent : rpc.caller.Coherent) (n : Module) :
    ∃ g, replaceRpc n rpc target args = (n.setFunction g, none) ∧ Redirected rpc args target g := by
  obtain ⟨new, g, gone, op, type, unseen, _, placed, replaced⟩ := replaceable.placed coherent n
  have slots : ∀ o ∈ new.op.operands, o = .code target.value ∨ o ∈ rpc.caller.operands := fun o present =>
    (mem_direct_operands.mp (op ▸ present)).imp_right (replaceable.args o)
  have calls : new.Calls target := ⟨_, _, op, rfl⟩
  obtain ⟨c, present, here, listed⟩ := placed.mem_rename target.result
  have known : new.mapOperands (rpc.site.rename target.result new.value) ∈
      ((g.mapOperands (rpc.site.rename target.result new.value)).note gone).instructions :=
    List.mem_flatMap.mpr ⟨c, present, listed⟩
  have fresh : (new.mapOperands (rpc.site.rename target.result new.value)).id ∉ rpc.caller.localIds :=
    fun known => unseen (Function.mem_seen_of_mem_localIds known)
  have only : ∀ j ∈ ((g.mapOperands (rpc.site.rename target.result new.value)).note gone).instructions,
      j.id ∉ rpc.caller.localIds → j = new.mapOperands (rpc.site.rename target.result new.value) :=
    fun j carried fresh => placed.eq_of_new_id target.result carried fresh
  refine ⟨(g.mapOperands (rpc.site.rename target.result new.value)).note gone, by simp only [replaceRpc, replaced], ?_⟩
  constructor
  case coherent =>
    exact Function.note_coherent (Function.mapOperands_coherent (rpc.site.rename_block _ _) placed.coherent) gone
  case wellFormed =>
    intro wellFormed
    refine Function.note_wellFormed
      (placed.wellFormed wellFormed (fun o present => ?_) (by rw [op]; rfl) target.result) gone
    rcases slots o present with rfl | passed
    · trivial
    · exact wellFormed.owned o passed
  case frame =>
    rw [placed.frame]
    rfl
  case names =>
    intro id named
    rcases placed.names target.result named with kept | ⟨o, present, named⟩
    · exact .inl kept
    · rcases slots o present with rfl | passed
      · exact .inr (Function.value_names named)
      · exact .inl (.inl ⟨o, passed, named⟩)
  case written =>
    intro node written
    rcases placed.writesOut target.result written with kept | passed
    · exact kept
    · exact replaceable.tuples node (by rw [op] at passed; exact passed)
  case removed =>
    rw [Function.note_localIds, Function.localIds_mapOperands]
    exact placed.removed (CallSite.standsIn_of_mem replaceable.site)
  case placed => exact ⟨c, present, here, _, listed, calls.rename _ _ _⟩
  case only => exact ⟨_, known, fresh, calls.rename _ _ _, only⟩
  case inserted =>
    intro typed takes
    refine ⟨new.mapOperands (rpc.site.rename target.result new.value), known, fresh, only, ?_, type⟩
    refine ⟨_, by rw [Instruction.mapOperands_op, op]; rfl, ?_, rfl, ?_⟩
    · exact rpc.site.rename_of_ne _ _ (v := target.value) (by simp [Function.value, Value.symbol]) false
    · have value : new.value = .local new.id target.result := by rw [← type]; rfl
      rw [value]
      exact replaceable.takes_renamed typed takes new.id

end

theorem Redirected.of_same {rpc : RpcSite} {args : List (Argument Value)} {target other g : Function}
    (redirected : Redirected rpc args target g) (same : target.SameHead other) : Redirected rpc args other g where
  coherent := redirected.coherent
  wellFormed := redirected.wellFormed
  frame := redirected.frame
  names := fun id named => same.id ▸ redirected.names id named
  written := redirected.written
  removed := redirected.removed
  placed := by
    obtain ⟨b, member, here, i, carried, calls⟩ := redirected.placed
    exact ⟨b, member, here, i, carried, calls.of_value same.value⟩
  only := by
    obtain ⟨i, listed, new, calls, only⟩ := redirected.only
    exact ⟨i, listed, new, calls.of_value same.value, only⟩
  inserted := by
    intro typed takes
    obtain ⟨i, inserted⟩ := redirected.inserted typed (same.takes.mp takes)
    exact ⟨i, inserted.of_same rfl same⟩

theorem MergePlan.target_same (plan : MergePlan) (p : Profile) (m : Module) : plan.clone.SameBody (plan.target p m) := by
  unfold target
  split
  · exact Function.copyCallAttributes_same _ _ _
  · exact .refl _

theorem MarshallingPlan.Fits.of_same {plan : MarshallingPlan} {f g : Function} (fits : plan.Fits f) (same : f.SameBody g) :
    plan.Fits g := by
  have sites : g.callSites = f.callSites := by rw [Function.callSites, Function.callSites, same.blocks]
  have operands : g.operands = f.operands := by rw [Function.operands, Function.operands, same.blocks]
  have elidable : ∀ site, Elidable f site → Elidable g site := by
    intro site before
    refine ⟨sites ▸ before.listed, before.free.imp_right fun unused => ?_, before.buffer⟩
    rw [Function.UnusedInCode, operands]
    exact unused
  refine ⟨fits.function.trans same.id.symm, ?_, fun site planned => elidable site (fits.receive site planned),
    elidable plan.send fits.send⟩
  obtain ⟨result, args, rest, params⟩ := fits.params
  have shape := same.params
  rw [params] at shape
  obtain ⟨first, others, list, _, shape⟩ := List.map_eq_cons_iff.mp shape
  obtain ⟨second, rest, list', _, _⟩ := List.map_eq_cons_iff.mp shape
  exact ⟨first, second, rest, by rw [list, list']⟩

namespace MergePlan.Checked

variable {m : Module} {plan : MergePlan} {merged : String}

theorem target_id (checked : plan.Checked merged m) (p : Profile) : (plan.target p m).id = m.freshSymbol := by
  exact (plan.target_same p m).id.trans (Function.withSignature_id checked.cloned)

theorem clone_name (checked : plan.Checked merged m) : plan.clone.name = (Ident.ofName merged).shown := by
  obtain ⟨_, form⟩ := Function.withSignature_ok checked.cloned
  rw [form]
  rfl

theorem target_fresh (checked : plan.Checked merged m) (p : Profile) : (plan.target p m).id ∉ m.symbolIds := by
  rw [checked.target_id p]
  exact m.freshSymbol_not_mem

theorem target_coherent (checked : plan.Checked merged m) (coherent : m.Coherent) (p : Profile) :
    (m.addFunction (plan.target p m)).Coherent := by
  have copied := Function.withSignature_coherent (coherent.functions _ checked.source) checked.cloned
  exact Module.addFunction_coherent coherent ((plan.target_same p m).coherent copied) (checked.target_fresh p)

theorem target_other (checked : plan.Checked merged m) (p : Profile) : (plan.target p m).id ≠ plan.rpc.caller.id := by
  intro same
  apply checked.target_fresh p
  rw [same]
  exact List.mem_append_left _ (List.mem_map.mpr ⟨_, checked.replaceable.caller, rfl⟩)

theorem redirected (checked : plan.Checked merged m) (coherent : m.Coherent) (p : Profile) :
    ∃ g, Redirected plan.rpc plan.args (plan.target p m) g ∧
      replaceRpc (m.addFunction (plan.target p m)) plan.rpc (plan.target p m) plan.args =
        ((m.addFunction (plan.target p m)).setFunction g, none) ∧
      ((m.addFunction (plan.target p m)).setFunction g).Coherent ∧
      plan.target p m ∈ ((m.addFunction (plan.target p m)).setFunction g).functions := by
  have result : plan.clone.result = (plan.target p m).result := (plan.target_same p m).result.symm
  have replaceable := result ▸ checked.replaceable
  obtain ⟨g, replaced, redirected⟩ := replaceable.redirected (coherent.functions _ replaceable.caller)
    (m.addFunction (plan.target p m))
  refine ⟨g, redirected, replaced, ?_, ?_⟩
  · exact Module.setFunction_coherent (checked.target_coherent coherent p) redirected.coherent
  · have caller : g.id = plan.rpc.caller.id := by rw [redirected.frame]
    refine List.mem_map.mpr ⟨plan.target p m, List.mem_append_right _ (List.mem_singleton.mpr rfl), ?_⟩
    simp [caller, checked.target_other p]

end MergePlan.Checked

def MergePlan.begun (plan : MergePlan) : Outcome where
  mode := .mergeCallee
  changed := true
  diagnostics := plan.found
  stats := { cloned := 1, replaced := 1 }

theorem commitMerge_of_replaced {p : Profile} {plan : MergePlan} {m n : Module}
    (replaced : replaceRpc (m.addFunction (plan.target p m)) plan.rpc (plan.target p m) plan.args = (n, none))
    (callee : String) : commitMerge p callee plan m =
      (entryChain p callee plan.source (elideMarshalling (plan.target p m).name plan.marshalling (n, plan.begun)).1).foldl
        (eraseDoomed (plan.target p m).id plan.source.id)
        (elideMarshalling (plan.target p m).name plan.marshalling (n, plan.begun)) := by
  unfold commitMerge
  dsimp only
  rw [replaced]
  rfl

end CallFusion
