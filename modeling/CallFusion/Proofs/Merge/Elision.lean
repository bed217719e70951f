import CallFusion.Proofs.Ir.Declarations
import CallFusion.Proofs.Merge.Copying
import CallFusion.Proofs.Merge.Planning

/-!
Replacing the planned marshalling calls of a function, one after the other. A plan that names two calls is
carried out whole; one that names an ordinary call twice stops at the second, which is no longer there.
Either way the function stays well formed.
-/

namespace CallFusion

open Ir

open MarshallingPlan (bufferOf)

namespace Elidable

variable {f : Function} {site : CallSite}

theorem buffer_operand (elidable : Elidable f site) : .code (bufferOf site) ∈ f.operands := by
  obtain ⟨attrs, v, first, _⟩ := elidable.buffer
  have listed : Argument.value attrs v ∈ site.args := List.mem_of_getElem? first
  have same : bufferOf site = v := by
    unfold bufferOf
    rw [first]
    rfl
  obtain ⟨a, member, bare⟩ := List.mem_map.mp listed
  rw [same]
  refine CallSite.argOperands_of_mem elidable.listed (List.mem_flatMap.mpr ⟨a, member, ?_⟩)
  rw [← Argument.operands_bare, bare]
  exact List.mem_singleton.mpr rfl

theorem buffer_isPointer (elidable : Elidable f site) : (bufferOf site).type.isPointer = true := by
  obtain ⟨attrs, v, first, pointer⟩ := elidable.buffer
  unfold bufferOf
  rw [first]
  exact pointer

theorem not_result (elidable : Elidable f site) (typed : f.Typed) {v : Value} (used : .code v ∈ f.operands)
    (pointer : v.type.isPointer = true) : v.local? ≠ some site.id := by
  intro held
  rcases elidable.free with void | unused
  · have same : v = site.value := typed _ used _ (CallSite.value_mem_results elidable.listed) site.id held rfl
    have type : v.type = site.type := by rw [same]; rfl
    rw [type, Ty.not_isPointer_of_isVoid void] at pointer
    cases pointer
  · exact unused _ used rfl held

end Elidable

/-- What a marshalling call that is still to be replaced needs of its function. -/
structure Ready (f : Function) (site : CallSite) : Prop where
  known : site.id ∈ f.seen
  free : site.type.isVoid = true ∨ f.UnusedInCode site.id ∧ (bufferOf site).local? ≠ some site.id
  params : ∀ p ∈ f.params, p.id ≠ site.id

/-- One end of a copy: the buffer of the call or one of the function's own. -/
def Endpoint (f : Function) (site : CallSite) (v : Value) : Prop := v = bufferOf site ∨ ∃ p ∈ f.params, v = p.value

section

variable {f g : Function} {site : CallSite} {dest source : Value}

theorem Elidable.params_apart (elidable : Elidable f site) (coherent : f.Coherent) : ∀ p ∈ f.params, p.id ≠ site.id := by
  intro p given
  obtain ⟨b, member, inside⟩ := List.mem_flatMap.mp elidable.listed
  exact Function.param_not_in_block coherent.numbered given member (CallSite.id_mem_ids inside)

theorem Elidable.ready (elidable : Elidable f site) (coherent : f.Coherent) : Ready f site where
  known := Function.mem_seen_of_mem_localIds (CallSite.id_mem_localIds elidable.listed)
  free := elidable.free.imp_right fun unused => ⟨unused, unused _ elidable.buffer_operand rfl⟩
  params := elidable.params_apart coherent

theorem Endpoint.owned (endpoint : Endpoint f site dest) (buffer : f.Owns (bufferOf site)) : f.Owns dest := by
  rcases endpoint with rfl | ⟨p, given, rfl⟩
  · exact buffer
  · exact Function.param_value_mem_results given

theorem Endpoint.names (endpoint : Endpoint f site dest) {id : SymbolId} (named : dest.Names id) :
    (bufferOf site).Names id := by
  rcases endpoint with rfl | ⟨p, given, rfl⟩
  · exact named
  · exact named.elim

theorem Endpoint.apart (endpoint : Endpoint f site dest) (ready : Ready f site)
    (buffer : (bufferOf site).local? ≠ some site.id) : dest.local? ≠ some site.id := by
  rcases endpoint with rfl | ⟨p, given, rfl⟩
  · exact buffer
  · exact fun held => ready.params p given (Option.some.inj held)

theorem Ready.copied (ready : Ready f site) (coherent : f.Coherent) {b : Block} (member : b ∈ f.blocks)
    (held : site.HeldBy b) (first : Endpoint f site dest) (second : Endpoint f site source) (copy : Function) (m : Module)
    (size : UInt64) (tag : String) :
    ∃ g, MarshallingPlan.replaceByCopy m f copy site dest source size tag = (g, none) ∧ Copied f site copy dest source g :=
  replaceByCopy_copied coherent member held ready.known
    (ready.free.imp_right fun ⟨unused, buffer⟩ => ⟨unused, first.apart ready buffer, second.apart ready buffer⟩)
    copy m size tag

end

section

variable {f g copy : Function} {r s : CallSite} {dest source : Value}

theorem Copied.params (copied : Copied f r copy dest source g) : g.params = f.params := by rw [copied.frame]

theorem Copied.unused (copied : Copied f r copy dest source g) (first : Endpoint f r dest) (second : Endpoint f r source)
    (receive : Elidable f r) (apart : ∀ p ∈ f.params, p.id ≠ s.id) (known : s.id ∈ f.seen)
    (unused : f.UnusedInCode s.id) : g.UnusedInCode s.id := by
  have endpoint : ∀ v, Endpoint f r v → v.local? ≠ some s.id := by
    rintro v (rfl | ⟨p, given, rfl⟩)
    · exact unused _ receive.buffer_operand rfl
    · exact fun held => apart p given (Option.some.inj held)
  intro o present debug
  rcases copied.code o present debug with kept | same | same | fresh
  · exact unused o kept debug
  · exact same ▸ endpoint dest first
  · exact same ▸ endpoint source second
  · exact fun held => fresh s.id held known

theorem Copied.held (copied : Copied f r copy dest source g) (coherent : f.Coherent) (receive : r ∈ f.callSites)
    (send : s ∈ f.callSites) :
    s.id ∈ g.seen ∧ ((∃ c ∈ g.blocks, s.HeldBy c) ∧ (s.id = r.id ∨ s.StandsIn g) ∨
      s.id = r.id ∧ s.successors = none ∧ s.id ∉ g.localIds) := by
  obtain ⟨b, member, inside⟩ := List.mem_flatMap.mp send
  obtain ⟨absent, gone⟩ := copied.removed (CallSite.standsIn_of_mem receive)
  rcases CallSite.cases_of_mem inside with ⟨i, carried, _, _, op, same⟩ | ⟨normal, unwind, op, same⟩
  · have number : s.id = i.id := by rw [same]
    have block : s.block = b.id := by rw [same]
    have ordinary : s.successors = none := by rw [same]
    by_cases again : s.id = r.id
    · exact ⟨again ▸ gone, .inr ⟨again, ordinary, again ▸ absent⟩⟩
    · obtain ⟨c, present, here, j, listed, kept, _⟩ := copied.insts b member i carried (number ▸ again)
      have stands : c.id = s.block ∧ ∃ i ∈ c.insts, i.id = s.id :=
        ⟨here.trans block.symm, j, listed, kept.trans number.symm⟩
      refine ⟨?_, .inl ⟨⟨c, present, ?_⟩, .inr ⟨c, present, ?_⟩⟩⟩
      · rw [number, ← kept]
        exact Function.mem_seen_of_mem_localIds (Function.mem_localIds_of_block present (Block.inst_id_mem_ids listed))
      · rw [CallSite.HeldBy, ordinary]
        exact stands
      · rw [ordinary]
        exact stands
  · have number : s.id = b.term.id := by rw [same]
    have block : s.block = b.id := by rw [same]
    have exceptional : s.successors = some (normal, unwind) := by rw [same]
    obtain ⟨c, present, here, ⟨_, kept, targets⟩ | ⟨lowered, next, other, successors, branch⟩⟩ := copied.terms b member
    · refine ⟨?_, .inl ⟨⟨c, present, here.trans block.symm, ?_⟩, .inr ⟨c, present, here.trans block.symm, ?_⟩⟩⟩
      · rw [number, ← kept]
        exact Function.mem_seen_of_mem_localIds (Function.mem_localIds_of_block present c.term_id_mem_ids)
      · rw [op] at targets
        rw [exceptional]
        refine ⟨fun _ => kept.trans number.symm, ?_, ?_⟩
        · rw [targets]
          exact List.mem_cons_self
        · rw [targets]
          exact fun v listed => by simpa [Terminator.targets] using listed
      · rw [exceptional]
        exact kept.trans number.symm
    · -- The replaced call was the invoke at the end of this very block.
      obtain ⟨d, within, holds⟩ := List.mem_flatMap.mp receive
      rcases CallSite.cases_of_mem holds with ⟨_, _, _, _, _, ordinary⟩ | ⟨n, u, invoke, form⟩
      · rw [ordinary] at successors
        cases successors
      · have equal : d = b := Function.block_eq_of_id coherent.numbered within member (by rw [lowered, form])
        subst equal
        have again : s.id = r.id := by rw [number, form]
        refine ⟨again ▸ gone, .inl ⟨⟨c, present, here.trans block.symm, ?_⟩, .inl again⟩⟩
        have taken : next = normal := by
          rw [form, Option.some.injEq, Prod.mk.injEq] at successors
          rw [op, Terminator.invoke.injEq] at invoke
          exact successors.1.symm.trans invoke.2.1.symm
        rw [exceptional]
        dsimp only
        rw [branch, taken]
        refine ⟨?_, List.mem_singleton.mpr rfl, fun v listed => .inl (List.mem_singleton.mp listed)⟩
        intro result
        cases result

theorem Copied.ready (copied : Copied f r copy dest source g) (coherent : f.Coherent) (receive : Elidable f r)
    (send : Elidable f s) (first : Endpoint f r dest) (second : Endpoint f r source) : Ready g s where
  known := (copied.held coherent receive.listed send.listed).1
  free := by
    have before := send.ready coherent
    exact before.free.imp_right fun ⟨unused, buffer⟩ =>
      ⟨copied.unused first second receive before.params before.known unused, buffer⟩
  params := by
    rw [copied.params]
    exact send.params_apart coherent

theorem Copied.buffer_owned (copied : Copied f r copy dest source g) (wellFormed : f.WellFormed) (receive : Elidable f r)
    (send : Elidable f s) : g.Owns (bufferOf s) :=
  copied.owns _ (wellFormed.owned _ send.buffer_operand)
    (receive.not_result wellFormed.typed send.buffer_operand send.buffer_isPointer)

end

theorem indexOf?_eq_none {f : Function} {id block : LocalId} (absent : id ∉ f.localIds) :
    (f.block? block).bind (·.indexOf? id) = none := by
  refine Option.bind_eq_none_iff.mpr fun b found => ?_
  obtain ⟨member, _⟩ := Function.mem_of_block? found
  refine List.findIdx?_eq_none_iff.mpr fun i carried => ?_
  have other : i.id ≠ id := fun same => absent (same ▸ Function.mem_localIds_of_block member (Block.inst_id_mem_ids carried))
  simpa using other

theorem dropDebugUses_wellFormed {f : Function} (wellFormed : f.WellFormed) (id : LocalId) (t : Ty) :
    (f.dropDebugUses (.local id t)).1.WellFormed := by
  refine Function.mapOperands_wellFormed (Value.dropDebug_block id t) wellFormed fun o present => ?_
  rw [Value.dropDebug_local]
  split
  · trivial
  · exact wellFormed.owned o present

theorem dropDebugUses_names {f : Function} {id : LocalId} {t : Ty} {symbol : SymbolId}
    (named : (f.dropDebugUses (.local id t)).1.Names symbol) : f.Names symbol := by
  rcases named with ⟨o, present, named⟩ | personality
  · rw [Function.dropDebugUses, Function.operands_mapOperands] at present
    obtain ⟨old, member, rfl⟩ := List.mem_map.mp present
    rw [Operand.map_value, Value.dropDebug_local] at named
    split at named
    · exact (Constant.not_names_undef t symbol named).elim
    · exact .inl ⟨old, member, named⟩
  · exact .inr personality

/-- A function that marshalling calls were taken from: it is called and declared as it was, and names at
most the copy intrinsic besides what it named. -/
structure Reworked (f copy g : Function) : Prop where
  coherent : g.Coherent
  wellFormed : f.WellFormed → g.WellFormed
  frame : g = { f with blocks := g.blocks, dropped := g.dropped }
  names : ∀ id, g.Names id → f.Names id ∨ id = copy.id
  written : ∀ node, g.WritesOut node → f.WritesOut node

theorem Reworked.refl {f : Function} (coherent : f.Coherent) (copy : Function) : Reworked f copy f :=
  ⟨coherent, fun wellFormed => wellFormed, rfl, fun _ named => .inl named, fun _ written => written⟩

theorem replaceCallSite_missing {f : Function} {site : CallSite} (ordinary : site.successors = none)
    (absent : site.id ∉ f.localIds) (call : Call Value) (type : Ty) (attached : List Attachment) (m : Module) :
    ∃ g e, f.replaceCallSite m site call type attached = (g, some e) ∧ (g = f ∨ g = (f.dropDebugUses site.value).1) := by
  have still : site.id ∉ (f.dropDebugUses site.value).1.localIds := by
    rwa [Function.dropDebugUses, Function.localIds_mapOperands]
  unfold Function.replaceCallSite
  dsimp only
  split
  · exact ⟨_, _, rfl, .inl rfl⟩
  · rw [ordinary]
    dsimp only
    by_cases agree : site.type.same type = true
    · rw [if_pos agree, Function.spliceOrdinary, indexOf?_eq_none absent]
      exact ⟨_, _, rfl, .inl rfl⟩
    · rw [if_neg agree, Function.spliceOrdinary, indexOf?_eq_none still]
      exact ⟨_, _, rfl, .inr rfl⟩

theorem replaceByCopy_missing {f : Function} (coherent : f.Coherent) {site : CallSite} (ordinary : site.successors = none)
    (absent : site.id ∉ f.localIds) (copy : Function) (dest source : Value) (m : Module) (size : UInt64) (tag : String) :
    ∃ g e, MarshallingPlan.replaceByCopy m f copy site dest source size tag = (g, some e) ∧ Reworked f copy g := by
  have unchanged : Reworked f copy f := .refl coherent copy
  have dropped : Reworked f copy (f.dropDebugUses site.value).1 :=
    ⟨Function.mapOperands_coherent (Value.dropDebug_block _ _) coherent,
      fun wellFormed => dropDebugUses_wellFormed wellFormed _ _, rfl, fun _ named => .inl (dropDebugUses_names named),
      fun _ written => Function.writesOut_mapOperands.mp written⟩
  unfold MarshallingPlan.replaceByCopy
  dsimp only
  generalize toBytePointer f f.freshId f.freshMention (tag ++ ".dst") dest = d
  generalize toBytePointer f (f.freshId + 1) (f.freshMention + 1) (tag ++ ".src") source = s
  by_cases none : (d.2 ++ s.2).isEmpty = true
  · rw [MarshallingPlan.insertCasts, if_pos none]
    obtain ⟨g, e, failed, form⟩ := replaceCallSite_missing ordinary absent
      (copyCall copy d.1 s.1 (f.freshMention + 2) size) .void [] m
    rw [copyCall] at failed
    dsimp only
    rw [failed]
    exact ⟨g, _, rfl, form.elim (fun same => same ▸ unchanged) fun same => same ▸ dropped⟩
  · have failed : ∃ e, MarshallingPlan.insertCasts m f site (d.2 ++ s.2) = .error e := by
      rw [MarshallingPlan.insertCasts, if_neg none, if_neg (by simp [CallSite.isExceptional, ordinary]), indexOf?_eq_none absent]
      exact ⟨_, rfl⟩
    obtain ⟨e, failed⟩ := failed
    rw [failed]
    exact ⟨f, e, rfl, unchanged⟩

theorem copyDeclaration_wellFormed (id : SymbolId) : (copyDeclaration id).WellFormed :=
  Function.wellFormed_of_declaration rfl (by decide : [0, 1, 2, 3].Nodup)

theorem not_names_copyDeclaration (id symbol : SymbolId) : ¬ (copyDeclaration id).Names symbol := by
  rintro (⟨o, present, _⟩ | ⟨c, personality, _⟩)
  · cases present
  · cases personality

theorem declareCopy_cases {m n : Module} {copy : Function} (declared : declareCopy m = .ok (n, copy)) :
    (n = m ∧ m.findFunction copyName = some copy) ∨
      (n = m.addFunction copy ∧ copy = copyDeclaration m.freshSymbol ∧ m.findFunction copyName = none) := by
  unfold declareCopy at declared
  split at declared
  · next f found =>
    split at declared
    · cases declared
      exact .inl ⟨rfl, found⟩
    · cases declared
  · next missing =>
    cases declared
    exact .inr ⟨rfl, rfl, missing⟩

theorem declareCopy_refused {m : Module} {e : Fault} (refused : declareCopy m = .error e) :
    (m.findFunction copyName).isNone = false := by
  unfold declareCopy at refused
  split at refused
  · next f found => rw [found, Option.isNone_some]
  · cases refused

theorem declareCopy_coherent {m n : Module} {copy : Function} (coherent : m.Coherent)
    (declared : declareCopy m = .ok (n, copy)) : n.Coherent ∧ ∀ f ∈ m.functions, f ∈ n.functions := by
  rcases declareCopy_cases declared with ⟨rfl, _⟩ | ⟨rfl, rfl, _⟩
  · exact ⟨coherent, fun f listed => listed⟩
  · refine ⟨?_, fun f listed => List.mem_append_left _ listed⟩
    exact Module.addFunction_coherent coherent (copyDeclaration_wellFormed _).toCoherent m.freshSymbol_not_mem

theorem declareCopy_sound {m n : Module} {copy : Function} (sound : m.Sound)
    (declared : declareCopy m = .ok (n, copy)) : n.Sound ∧ n.Declares copy.id := by
  rcases declareCopy_cases declared with ⟨rfl, found⟩ | ⟨rfl, rfl, _⟩
  · exact ⟨sound, .inl ⟨copy, (findFunction_mem found).1, rfl⟩⟩
  · refine ⟨?_, m.addFunction_declares _⟩
    exact Module.addFunction_sound sound (copyDeclaration_wellFormed _) m.freshSymbol_not_mem fun id named =>
      (not_names_copyDeclaration _ id named).elim

theorem Elidable.buffer_names {f : Function} {site : CallSite} (elidable : Elidable f site) {id : SymbolId}
    (named : (bufferOf site).Names id) : f.Names id :=
  .inl ⟨_, elidable.buffer_operand, named⟩

theorem Reworked.trans {f g h copy : Function} (first : Reworked f copy g) (second : Reworked g copy h) :
    Reworked f copy h where
  coherent := second.coherent
  wellFormed := fun wellFormed => second.wellFormed (first.wellFormed wellFormed)
  frame := by
    rw [second.frame, first.frame]
  names := fun id named => (second.names id named).elim (first.names id) .inr
  written := fun node written => first.written node (second.written node written)

namespace MarshallingPlan

def sites (plan : MarshallingPlan) : List CallSite := plan.receive.toList ++ [plan.send]

/-- The plan names one ordinary call twice. -/
def Overlaps (plan : MarshallingPlan) : Prop :=
  ∃ site, plan.receive = some site ∧ site.id = plan.send.id ∧ plan.send.successors = none

end MarshallingPlan

/-- The instruction of a number calls a function from the block of a call site. -/
def StandsFor (g copy : Function) (site : CallSite) (id : LocalId) : Prop :=
  ∃ b ∈ g.blocks, b.id = site.block ∧ ∃ i ∈ b.insts, i.id = id ∧ i.Calls copy

/-- Calls of a function are gone, and each has a copy of its own in its block. -/
structure AllCopied (g copy : Function) (sites : List CallSite) : Prop where
  gone : ∀ site ∈ sites, site.id ∉ g.localIds
  placed : ∃ ids : List LocalId, ids.Nodup ∧ List.Forall₂ (StandsFor g copy) sites ids

section

variable {f g h copy : Function} {r s : CallSite} {result args : Param}

theorem Copied.reworked {dest source : Value} (copied : Copied g r copy dest source h) (before : Reworked f copy g)
    (first : Endpoint g r dest) (second : Endpoint g r source) (owned : f.WellFormed → g.Owns (bufferOf r))
    (names : ∀ id, (bufferOf r).Names id → f.Names id) : Reworked f copy h where
  coherent := copied.coherent
  wellFormed := fun wellFormed =>
    copied.wellFormed (before.wellFormed wellFormed) (first.owned (owned wellFormed)) (second.owned (owned wellFormed))
  frame := by
    rw [copied.frame, before.frame]
  names := fun id named => by
    rcases copied.names id named with kept | copy | inDest | inSource
    · exact before.names id kept
    · exact .inr copy
    · exact .inl (names id (first.names inDest))
    · exact .inl (names id (second.names inSource))
  written := fun node written => before.written node (copied.written node written)

theorem Copied.still_gone {dest source : Value} (copied : Copied f r copy dest source g) {id : LocalId}
    (absent : id ∉ f.localIds) (known : id ∈ f.seen) : id ∉ g.localIds := by
  intro present
  rcases copied.ids id present with old | new
  · exact absent old
  · exact new known

theorem Copied.calls {dest source : Value} (copied : Copied f r copy dest source g) {b : Block} (member : b ∈ f.blocks)
    {i : Instruction} (carried : i ∈ b.insts) (other : i.id ≠ r.id) {target : Function} (calls : i.Calls target) :
    ∃ c ∈ g.blocks, c.id = b.id ∧ ∃ j ∈ c.insts, j.id = i.id ∧ j.Calls target := by
  obtain ⟨c, present, here, j, listed, same, kept⟩ := copied.insts b member i carried other
  exact ⟨c, present, here, j, listed, same, kept target calls⟩

theorem Elidable.copied {dest source : Value} (elidable : Elidable f s) (coherent : f.Coherent)
    (first : Endpoint f s dest) (second : Endpoint f s source) (copy : Function) (m : Module) (size : UInt64) (tag : String) :
    ∃ g, MarshallingPlan.replaceByCopy m f copy s dest source size tag = (g, none) ∧ Copied f s copy dest source g := by
  obtain ⟨b, member, inside⟩ := List.mem_flatMap.mp elidable.listed
  exact (elidable.ready coherent).copied coherent member (CallSite.heldBy_of_mem inside) first second copy m size tag

theorem Copied.second (copied : Copied f r copy (bufferOf r) args.value g) (coherent : f.Coherent)
    (receive : Elidable f r) (send : Elidable f s) (argsGiven : args ∈ f.params) (resultGiven : result ∈ f.params)
    (m : Module) (size : UInt64) (tag : String) :
    (∃ h e, MarshallingPlan.replaceByCopy m g copy s result.value (bufferOf s) size tag = (h, some e) ∧
      Reworked g copy h ∧ r.id = s.id ∧ s.successors = none) ∨
    ∃ h, MarshallingPlan.replaceByCopy m g copy s result.value (bufferOf s) size tag = (h, none) ∧
      Copied g s copy result.value (bufferOf s) h ∧ ¬ (r.id = s.id ∧ s.successors = none) ∧
        (s.id ≠ r.id → s.StandsIn g) := by
  have first : Endpoint f r (bufferOf r) := .inl rfl
  have second : Endpoint f r args.value := .inr ⟨args, argsGiven, rfl⟩
  have ready := copied.ready coherent receive send first second
  obtain ⟨_, ⟨⟨c, present, held⟩, stands⟩ | ⟨again, ordinary, absent⟩⟩ := copied.held coherent receive.listed send.listed
  · right
    obtain ⟨h, replaced, copied'⟩ := ready.copied copied.coherent present held
      (.inr ⟨result, copied.params.symm ▸ resultGiven, rfl⟩) (.inl rfl) copy m size tag
    refine ⟨h, replaced, copied', ?_, fun other => stands.resolve_left other⟩
    rintro ⟨again, ordinary⟩
    have gone := (copied.removed (CallSite.standsIn_of_mem receive.listed)).1
    obtain ⟨_, holds⟩ := held
    rw [ordinary] at holds
    obtain ⟨i, carried, number⟩ := holds
    apply gone
    rw [again, ← number]
    exact Function.mem_localIds_of_block present (Block.inst_id_mem_ids carried)
  · left
    obtain ⟨h, e, failed, reworked⟩ := replaceByCopy_missing copied.coherent ordinary absent copy result.value (bufferOf s)
      m size tag
    exact ⟨h, e, failed, reworked, again.symm, ordinary⟩

theorem Copied.alone {dest source : Value} (copied : Copied f s copy dest source g) (send : Elidable f s) :
    AllCopied g copy [s] := by
  obtain ⟨c, present, here, i, carried, _, calls⟩ := copied.placed
  constructor
  · intro site listed
    obtain rfl := List.mem_singleton.mp listed
    exact (copied.removed (CallSite.standsIn_of_mem send.listed)).1
  · exact ⟨[i.id], List.nodup_singleton _, .cons ⟨c, present, here, i, carried, rfl, calls⟩ .nil⟩

theorem Copied.uncast {dest source : Value} (copied : Copied f r copy dest source g) (coherent : f.Coherent)
    (receive : r ∈ f.callSites) (send : s ∈ f.callSites) (type : Ty) : g.castSource? (.local s.id type) = none := by
  by_cases again : s.id = r.id
  · rw [again]
    exact Function.castSource?_absent (copied.removed (CallSite.standsIn_of_mem receive)).1 type
  · have carries := copied.carries (Function.castSource?_site coherent.numbered receive)
    obtain ⟨t, present, matching⟩ := carries.earlier s send (by simpa using again)
    rw [← matching.id]
    exact Function.castSource?_site copied.coherent.numbered present type

/-- After both calls of a plan are replaced, both are gone and a copy stands in the block of each. -/
theorem Copied.both (copied : Copied f r copy (bufferOf r) args.value g) (receive : Elidable f r) (send : Elidable f s)
    (second : Copied g s copy result.value (bufferOf s) h) (stands : s.id ≠ r.id → s.StandsIn g) :
    AllCopied h copy [r, s] := by
  obtain ⟨absent, known⟩ := copied.removed (CallSite.standsIn_of_mem receive.listed)
  have gone : r.id ∉ h.localIds := second.still_gone absent known
  have sendSeen : s.id ∈ f.seen := Function.mem_seen_of_mem_localIds (CallSite.id_mem_localIds send.listed)
  obtain ⟨c, present, here, i, carried, unseen, calls⟩ := copied.placed
  obtain ⟨d, still, same, j, listed, number, placed⟩ :=
    second.calls present carried (fun equal => unseen (equal ▸ sendSeen)) calls
  obtain ⟨c', present', here', i', carried', unseen', calls'⟩ := second.placed
  constructor
  · intro site listed
    rcases List.mem_cons.mp listed with rfl | last
    · exact gone
    · obtain rfl := List.mem_singleton.mp last
      by_cases again : site.id = r.id
      · exact again ▸ gone
      · exact (second.removed (stands again)).1
  · have apart : i.id ≠ i'.id := fun equal => unseen' (equal ▸ Function.mem_seen_of_mem_localIds
      (Function.mem_localIds_of_block present (Block.inst_id_mem_ids carried)))
    exact ⟨[i.id, i'.id], by simpa using apart, .cons ⟨d, still, same.trans here, j, listed, number, placed⟩
      (.cons ⟨c', present', here', i', carried', rfl, calls'⟩ .nil)⟩

end

section

variable {m n : Module} {f g h copy : Function} {plan : MarshallingPlan} {result args : Param} {rest : List Param}

theorem MarshallingPlan.Fits.function?_declared (fits : plan.Fits f) (coherent : m.Coherent) (listed : f ∈ m.functions)
    (declared : declareCopy m = .ok (n, copy)) : n.function? plan.function = some f := by
  obtain ⟨later, kept⟩ := declareCopy_coherent coherent declared
  rw [fits.function]
  exact Module.function?_of_mem later.distinct (kept f listed)

theorem MarshallingPlan.apply_of_refused {e : Fault} (refused : declareCopy m = .error e) : plan.apply m = (m, 0, some e) := by
  rw [MarshallingPlan.apply, refused]

theorem MarshallingPlan.apply_of_skipped (declared : declareCopy m = .ok (n, copy))
    (found : n.function? plan.function = some f) (params : f.params = result :: args :: rest) (absent : plan.receive = none)
    (sent : replaceByCopy (n.setFunction f) f copy plan.send result.value (bufferOf plan.send) plan.sendSize "send" = (g, none))
    (same : g.id = f.id) : plan.apply m = (n.setFunction g, 1, none) := by
  simp only [apply, declared, found, params, absent, sent, Module.setFunction_setFunction same]

theorem MarshallingPlan.apply_of_received (declared : declareCopy m = .ok (n, copy))
    (found : n.function? plan.function = some f) (params : f.params = result :: args :: rest) {r : CallSite}
    (planned : plan.receive = some r)
    (received : replaceByCopy n f copy r (bufferOf r) args.value plan.receiveSize "recv" = (g, none)) {failed : Option Fault}
    (sent : replaceByCopy (n.setFunction g) g copy plan.send result.value (bufferOf plan.send) plan.sendSize "send" = (h, failed))
    (same : h.id = g.id) : plan.apply m = (n.setFunction h, if failed.isNone then 2 else 1, failed) := by
  cases failed <;>
    simp only [apply, declared, found, params, planned, received, sent, Module.setFunction_setFunction same, Option.isNone_none,
      Option.isNone_some, if_true, Bool.false_eq_true, if_false]

end

/-- Carrying out a plan on a module that holds its function: the intrinsic is refused, or the function is
reworked, and then every planned call is replaced unless the plan names one ordinary call twice. -/
theorem apply_cases {m : Module} {f : Function} {plan : MarshallingPlan} (coherent : m.Coherent)
    (listed : f ∈ m.functions) (fits : plan.Fits f) :
    (∃ e, declareCopy m = .error e ∧ plan.apply m = (m, 0, some e)) ∨
      ∃ n copy g count failed, declareCopy m = .ok (n, copy) ∧ plan.apply m = (n.setFunction g, count, failed) ∧
        Reworked f copy g ∧ (failed = none ↔ ¬ plan.Overlaps) ∧ (failed = none → count = plan.sites.length ∧
          AllCopied g copy plan.sites ∧ f.Carries (plan.sites.map (·.id)) copy.id g) := by
  cases declared : declareCopy m with
  | error e => exact .inl ⟨e, rfl, plan.apply_of_refused declared⟩
  | ok pair =>
    right
    obtain ⟨n, copy⟩ := pair
    have found := fits.function?_declared coherent listed declared
    have function := coherent.functions f listed
    obtain ⟨result, args, rest, params⟩ := fits.params
    have resultGiven : result ∈ f.params := params ▸ List.mem_cons_self
    have argsGiven : args ∈ f.params := params ▸ List.mem_cons_of_mem _ List.mem_cons_self
    have resultEnd : ∀ {g : Function} {site : CallSite}, g.params = f.params → Endpoint g site result.value :=
      fun same => .inr ⟨result, same.symm ▸ resultGiven, rfl⟩
    have argsEnd : ∀ {site : CallSite}, Endpoint f site args.value := .inr ⟨args, argsGiven, rfl⟩
    have sendNames : ∀ id, (bufferOf plan.send).Names id → f.Names id := fun id => fits.send.buffer_names
    have start : Reworked f copy f := .refl function copy
    cases received : plan.receive with
    | none =>
      obtain ⟨g, replaced, copied⟩ := fits.send.copied function (resultEnd rfl) (.inl rfl) copy (n.setFunction f)
        plan.sendSize "send"
      have single : ¬ plan.Overlaps := by
        rintro ⟨site, named, _⟩
        rw [received] at named
        cases named
      have reworked : Reworked f copy g := copied.reworked start (resultEnd rfl) (.inl rfl)
        (fun wellFormed => wellFormed.owned _ fits.send.buffer_operand) sendNames
      have applied := plan.apply_of_skipped declared found params received replaced (by rw [copied.frame])
      refine ⟨n, copy, g, 1, none, rfl, applied, reworked, iff_of_true rfl single, fun _ => ?_⟩
      rw [MarshallingPlan.sites, received]
      exact ⟨rfl, copied.alone fits.send, copied.carries (Function.castSource?_site function.numbered fits.send.listed)⟩
    | some r =>
      have receive := fits.receive r received
      obtain ⟨g, replaced, copied⟩ := receive.copied function (.inl rfl) argsEnd copy n plan.receiveSize "recv"
      have reworked : Reworked f copy g := copied.reworked start (.inl rfl) argsEnd
        (fun wellFormed => wellFormed.owned _ receive.buffer_operand) fun id => receive.buffer_names
      -- the send is looked up in what the receive has left: gone with it, or still in its block
      rcases copied.second function receive fits.send argsGiven resultGiven (n.setFunction g) plan.sendSize "send" with
        ⟨h, e, failed, later, again, ordinary⟩ | ⟨h, done, copied', apart, stands⟩
      · have overlaps : plan.Overlaps := ⟨r, received, again, ordinary⟩
        have applied := plan.apply_of_received declared found params received replaced failed (by rw [later.frame])
        exact ⟨n, copy, h, 1, some e, rfl, applied, reworked.trans later,
          iff_of_false (fun none => nomatch none) fun apart => apart overlaps, fun none => nomatch none⟩
      · have single : ¬ plan.Overlaps := by
          rintro ⟨site, named, again⟩
          obtain rfl : r = site := Option.some.inj (received.symm.trans named)
          exact apart again
        have whole : Reworked f copy h := copied'.reworked reworked (resultEnd copied.params) (.inl rfl)
          (fun wellFormed => copied.buffer_owned wellFormed receive fits.send) sendNames
        have applied := plan.apply_of_received declared found params received replaced done (by rw [copied'.frame])
        refine ⟨n, copy, h, 2, none, rfl, applied, whole, iff_of_true rfl single, fun _ => ?_⟩
        rw [MarshallingPlan.sites, received]
        have first := copied.carries (Function.castSource?_site function.numbered receive.listed)
        have second := copied'.carries (copied.uncast function receive.listed fits.send.listed)
        have all := copied.both receive fits.send copied' stands
        refine ⟨rfl, all, first.trans second fun t listed => ?_⟩
        rw [List.mem_singleton]
        exact fun same => all.gone r List.mem_cons_self (same ▸ CallSite.id_mem_localIds listed)

end CallFusion
