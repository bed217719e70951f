import CallFusion.Proofs.Ir.Insertion
import CallFusion.Proofs.Ir.Sources
import Mathlib.Data.List.Flatten

/-!
The call sites that an edit leaves alone. Putting instructions in and replacing one site by a call keep every other
site, and each of them still calls what it called, also where the callee is the result of a cast.
-/

namespace CallFusion.Ir

theorem Operation.call_of_mapOperands {op : Operation Value} {r : Bool → Value → Value} {tail : String} {c : Call Value}
    (form : op.mapOperands r = .call tail c) : ∃ d, op = .call tail d ∧ c = d.mapOperands r := by
  cases op with
  | call other d =>
    cases form
    exact ⟨d, rfl, rfl⟩
  | _ => cases form

def Operation.castBase? : Operation Value → Option Value
  | .cast .bitcast x _ => some x
  | _ => none

theorem Operation.castBase_passesOn : PassesOn castBase? where
  renamed := by
    intro op r
    cases op with
    | cast kind => cases kind <;> rfl
    | _ => rfl
  phi := fun _ _ => rfl
  call := fun _ _ => rfl

theorem Terminator.invoke_of_mapOperands {op : Terminator Value} {r : Bool → Value → Value} {c : Call Value}
    {normal unwind : Value} (form : op.mapOperands r = .invoke c normal unwind) :
    ∃ d n u, op = .invoke d n u ∧ c = d.mapOperands r := by
  cases op with
  | invoke d n u =>
    cases form
    exact ⟨d, n, u, rfl, rfl⟩
  | _ => cases form

namespace Block

variable {b : Block}

theorem exists_site_of_call {i : Instruction} (carried : i ∈ b.insts) {tail : String} {c : Call Value}
    (op : i.op = .call tail c) : ∃ s ∈ b.callSites, s.id = i.id ∧ s.call = c ∧ s.kind = .ordinary := by
  obtain ⟨k, found⟩ := List.mem_iff_getElem?.mp carried
  refine ⟨⟨b.id, some k, i.id, i.ident, i.type, c, i.attachments, none⟩, List.mem_append_left _ ?_, rfl, rfl, rfl⟩
  exact List.mem_filterMap.mpr ⟨(i, k), List.mem_zipIdx_iff_getElem?.mpr found, by simp [Instruction.call?, op]⟩

theorem exists_site_of_invoke {c : Call Value} {normal unwind : Value} (op : b.term.op = .invoke c normal unwind) :
    ∃ s ∈ b.callSites, s.id = b.term.id ∧ s.call = c ∧ s.kind = .exceptional :=
  ⟨⟨b.id, none, b.term.id, b.term.ident, b.term.type, c, b.term.attachments, some (normal, unwind)⟩,
    List.mem_append_right _ (by simp [op]), rfl, rfl, rfl⟩

theorem callSites_ids (b : Block) : (b.callSites.map (·.id)).Sublist b.ids := by
  have ordinary : ∀ (insts : List Instruction) (k : Nat), (((insts.zipIdx k).filterMap fun e => e.1.call?.map fun c =>
      (⟨b.id, some e.2, e.1.id, e.1.ident, e.1.type, c, e.1.attachments, none⟩ : CallSite)).map (·.id)).Sublist
        (insts.map (·.id)) := by
    intro insts
    induction insts with
    | nil => exact fun _ => .slnil
    | cons i insts ih =>
      intro k
      simp only [List.zipIdx_cons, List.filterMap_cons, List.map_cons]
      cases i.call? with
      | none => exact (ih (k + 1)).cons i.id
      | some c => exact (ih (k + 1)).cons_cons i.id
  refine .cons b.id ?_
  rw [callSites, List.map_append]
  refine (ordinary b.insts 0).append ?_
  split
  · exact .refl _
  · exact List.nil_sublist _

end Block

namespace CallSite

variable {f : Function} {site : CallSite}

theorem ids_nodup (numbered : f.localIds.Nodup) : (f.callSites.map (·.id)).Nodup := by
  rw [Function.callSites, List.map_flatMap]
  refine numbered.sublist ((List.Sublist.flatMap_right f.blocks fun b _ => b.callSites_ids).trans ?_)
  exact List.sublist_append_right _ _

theorem standsIn_of_mem (listed : site ∈ f.callSites) : site.StandsIn f := by
  obtain ⟨b, member, inside⟩ := List.mem_flatMap.mp listed
  rcases cases_of_mem inside with ⟨i, carried, _, _, _, same⟩ | ⟨_, _, _, same⟩
  · rw [same]
    exact ⟨b, member, rfl, i, carried, rfl⟩
  · rw [same]
    exact ⟨b, member, rfl, rfl⟩

theorem argOperands_of_mem (listed : site ∈ f.callSites) {o : Operand Value} (present : o ∈ site.call.argOperands) :
    o ∈ f.operands := by
  obtain ⟨b, member, inside⟩ := List.mem_flatMap.mp listed
  have operand : o ∈ (Operation.call "" site.call).operands := by
    simp only [Operation.operands, List.mem_cons, List.mem_append]
    exact .inr (.inl present)
  exact List.mem_flatMap.mpr ⟨b, member, operands_of_mem inside operand⟩

theorem value_mem_results (listed : site ∈ f.callSites) : site.value ∈ f.results := by
  obtain ⟨b, member, inside⟩ := List.mem_flatMap.mp listed
  apply List.mem_append_right
  refine List.mem_flatMap.mpr ⟨b, member, ?_⟩
  rcases cases_of_mem inside with ⟨i, carried, _, _, op, same⟩ | ⟨_, _, op, same⟩
  · apply List.mem_append_left
    rw [same]
    exact List.mem_map.mpr ⟨i, List.mem_filter.mpr ⟨carried, by rw [op]; rfl⟩, rfl⟩
  · apply List.mem_append_right
    rw [same, if_pos (by rw [op]; rfl)]
    exact List.mem_singleton.mpr rfl

theorem call_eq_of_id (numbered : f.localIds.Nodup) {s t : CallSite} (first : s ∈ f.callSites) (second : t ∈ f.callSites)
    (same : s.id = t.id) : s.call = t.call := by
  obtain ⟨b, member, inside⟩ := List.mem_flatMap.mp first
  obtain ⟨c, within, also⟩ := List.mem_flatMap.mp second
  obtain rfl : b = c := Function.block_unique numbered member within (id_mem_ids inside) (same ▸ id_mem_ids also)
  have distinct := Function.block_ids_nodup numbered member
  have apart : ∀ i ∈ b.insts, i.id ≠ b.term.id := fun i carried =>
    (List.nodup_append.mp (List.nodup_cons.mp distinct).2).2.2 _ (List.mem_map.mpr ⟨i, carried, rfl⟩) _ List.mem_cons_self
  rcases cases_of_mem inside with ⟨i, carried, _, _, op, form⟩ | ⟨_, _, op, form⟩
  · rcases cases_of_mem also with ⟨j, listed, _, _, op', form'⟩ | ⟨_, _, _, form'⟩
    · rw [form, form'] at same
      obtain rfl : i = j := List.inj_on_of_nodup_map (Block.inst_ids_nodup distinct) carried listed same
      rw [op, Operation.call.injEq] at op'
      exact op'.2
    · rw [form, form'] at same
      exact absurd same (apart i carried)
  · rcases cases_of_mem also with ⟨j, listed, _, _, _, form'⟩ | ⟨_, _, op', form'⟩
    · rw [form, form'] at same
      exact absurd same.symm (apart j listed)
    · rw [op, Terminator.invoke.injEq] at op'
      exact op'.1

end CallSite

namespace Function

variable {f g h : Function} {site s t : CallSite} {copy : SymbolId}

theorem callee_held (listed : s ∈ f.callSites) : f.Holds s.call.callee := by
  obtain ⟨b, member, inside⟩ := List.mem_flatMap.mp listed
  exact ⟨.code s.call.callee,
    List.mem_flatMap.mpr ⟨b, member,
      CallSite.operands_of_mem inside (List.mem_cons_self : _ ∈ (Operation.call "" s.call).operands)⟩, rfl⟩

theorem castSource?_eq (f : Function) (v : Value) : f.castSource? v = f.source? Operation.castBase? v := by
  cases v <;> rfl

theorem castSource?_site (numbered : f.localIds.Nodup) (listed : s ∈ f.callSites) (type : Ty) :
    f.castSource? (.local s.id type) = none := by
  rw [castSource?_eq, source?_site Operation.castBase_passesOn numbered listed]

theorem castSource?_absent {id : LocalId} (absent : id ∉ f.localIds) (type : Ty) :
    f.castSource? (.local id type) = none := by
  rw [castSource?_eq, source?_absent absent]

/-- Two call sites of one number and one kind that call the same. -/
structure Matching (f : Function) (s : CallSite) (g : Function) (t : CallSite) : Prop where
  id : t.id = s.id
  kind : t.kind = s.kind
  called : g.calledId? t = f.calledId? s

theorem Matching.trans {u : CallSite} (first : f.Matching s g t) (second : g.Matching t h u) : f.Matching s h u :=
  ⟨second.id.trans first.id, second.kind.trans first.kind, second.called.trans first.called⟩

/-- A function that still has the call sites of another one, up to some, and no others but new calls of `copy`. -/
structure Carries (f : Function) (gone : List LocalId) (copy : SymbolId) (g : Function) : Prop where
  earlier : ∀ s ∈ f.callSites, s.id ∉ gone → ∃ t ∈ g.callSites, f.Matching s g t
  later : ∀ t ∈ g.callSites, (g.calledId? t = some copy ∧ ∀ s ∈ f.callSites, t.id ≠ s.id) ∨
    ∃ s ∈ f.callSites, f.Matching s g t

namespace Carries

variable {gone more : List LocalId}

theorem trans (first : f.Carries gone copy g) (second : g.Carries more copy h)
    (lost : ∀ t ∈ h.callSites, t.id ∉ gone) : f.Carries (gone ++ more) copy h where
  earlier := by
    intro s listed stays
    rw [List.mem_append, not_or] at stays
    obtain ⟨t, between, matching⟩ := first.earlier s listed stays.1
    obtain ⟨u, last, further⟩ := second.earlier t between (matching.id ▸ stays.2)
    exact ⟨u, last, matching.trans further⟩
  later := by
    intro u last
    rcases second.later u last with ⟨calls, new⟩ | ⟨t, between, further⟩
    · refine .inl ⟨calls, fun s listed same => ?_⟩
      obtain ⟨t, between, matching⟩ := first.earlier s listed (same ▸ lost u last)
      exact new t between (same.trans matching.id.symm)
    · rcases first.later t between with ⟨calls, new⟩ | ⟨s, listed, matching⟩
      · exact .inl ⟨further.called.trans calls, further.id ▸ new⟩
      · exact .inr ⟨s, listed, matching.trans further⟩

theorem congr {f' g' : Function} (carries : f.Carries gone copy g) (before : f'.blocks = f.blocks)
    (after : g'.blocks = g.blocks) : f'.Carries gone copy g' := by
  have called : ∀ {a b : Function}, b.blocks = a.blocks → ∀ s, b.calledId? s = a.calledId? s := fun same s =>
    calledId?_congr (by rw [instructions, instructions, same]) s
  have sites : ∀ {a b : Function}, b.blocks = a.blocks → b.callSites = a.callSites := fun same => by
    rw [callSites, callSites, same]
  have matching : ∀ {s t}, f.Matching s g t → f'.Matching s g' t := fun same =>
    ⟨same.id, same.kind, by rw [called after, called before, same.called]⟩
  constructor
  · intro s listed stays
    obtain ⟨t, present, same⟩ := carries.earlier s (sites before ▸ listed) stays
    exact ⟨t, sites after ▸ present, matching same⟩
  · intro t listed
    rcases carries.later t (sites after ▸ listed) with ⟨calls, new⟩ | ⟨s, present, same⟩
    · exact .inl ⟨(called after t).trans calls, sites before ▸ new⟩
    · exact .inr ⟨s, sites before ▸ present, matching same⟩

end Carries

namespace Inserted

variable {new : List Instruction}

theorem castSource? (inserted : f.Inserted new g) (numbered : f.localIds.Nodup) {id : LocalId}
    (other : id ∉ new.map (·.id)) (type : Ty) : g.castSource? (.local id type) = f.castSource? (.local id type) := by
  apply Option.ext
  intro x
  constructor
  · intro found
    obtain ⟨_, _, form, i, carried, number, target, op⟩ := castSource?_eq_some found
    cases form
    obtain ⟨c, within, inside⟩ := List.mem_flatMap.mp carried
    rcases (inserted.origins c within).2 i inside with added | ⟨b, member, old⟩
    · exact absurd (List.mem_map.mpr ⟨i, added, number⟩) other
    · rw [← number]
      exact castSource?_of_mem numbered (List.mem_flatMap.mpr ⟨b, member, old⟩) op type
  · intro found
    obtain ⟨_, _, form, i, carried, number, target, op⟩ := castSource?_eq_some found
    cases form
    obtain ⟨b, member, inside⟩ := List.mem_flatMap.mp carried
    obtain ⟨c, within, _, _, insts⟩ := inserted.blocks b member
    rw [← number]
    exact castSource?_of_mem inserted.coherent.numbered (List.mem_flatMap.mpr ⟨c, within, insts i inside⟩) op type

theorem recasts (inserted : f.Inserted new g) (numbered : f.localIds.Nodup) (fresh : ∀ i ∈ new, f.freshId ≤ i.id) :
    f.Recasts (fun v => v) g where
  renames := fun _ => .inl rfl
  sources := by
    rintro v ⟨o, present, rfl⟩
    rw [Option.map_id']
    cases held : o.value with
    | «local» id type =>
      refine inserted.castSource? numbered (fun added => ?_) type
      obtain ⟨i, listed, number⟩ := List.mem_map.mp added
      exact Nat.not_lt.mpr (fresh i listed) (number ▸ lt_freshId_of_local present held)
    | _ => rfl

theorem carries (inserted : f.Inserted new g) (numbered : f.localIds.Nodup) (fresh : ∀ i ∈ new, f.freshId ≤ i.id)
    (silent : ∀ i ∈ new, ∀ tail c, i.op ≠ .call tail c) (copy : SymbolId) : f.Carries [] copy g := by
  have recasts := inserted.recasts numbered fresh
  constructor
  · intro s listed _
    obtain ⟨b, member, inside⟩ := List.mem_flatMap.mp listed
    obtain ⟨c, within, _, term, insts⟩ := inserted.blocks b member
    have found : ∃ t ∈ c.callSites, t.id = s.id ∧ t.call = s.call ∧ t.kind = s.kind := by
      rcases CallSite.cases_of_mem inside with ⟨i, carried, _, _, op, same⟩ | ⟨_, _, op, same⟩
      · rw [same]
        exact Block.exists_site_of_call (insts i carried) op
      · rw [same, ← term]
        exact Block.exists_site_of_invoke (term ▸ op)
    obtain ⟨t, there, number, call, kind⟩ := found
    exact ⟨t, List.mem_flatMap.mpr ⟨c, within, there⟩, number, kind, recasts.calledId? (callee_held listed) (by rw [call])⟩
  · intro t listed
    obtain ⟨c, within, inside⟩ := List.mem_flatMap.mp listed
    obtain ⟨⟨b, member, term⟩, insts⟩ := inserted.origins c within
    have found : ∃ s ∈ f.callSites, s.id = t.id ∧ s.call = t.call ∧ s.kind = t.kind := by
      rcases CallSite.cases_of_mem inside with ⟨i, carried, _, _, op, same⟩ | ⟨_, _, op, same⟩
      · rcases insts i carried with added | ⟨d, old, here⟩
        · exact absurd op (silent i added _ _)
        · rw [same]
          obtain ⟨s, there, rest⟩ := Block.exists_site_of_call here op
          exact ⟨s, List.mem_flatMap.mpr ⟨d, old, there⟩, rest⟩
      · rw [same, term]
        obtain ⟨s, there, rest⟩ := Block.exists_site_of_invoke (term ▸ op)
        exact ⟨s, List.mem_flatMap.mpr ⟨b, member, there⟩, rest⟩
    obtain ⟨s, there, number, call, kind⟩ := found
    exact .inr ⟨s, there, number.symm, kind.symm, recasts.calledId? (callee_held there) (by rw [call])⟩

end Inserted

theorem newcomer_apart {site : CallSite} {call : Call Value} {type : Ty} {attached : List Attachment} {v : Value}
    (held : f.Holds v) (other : v.local? ≠ some site.id) : v.local? ≠ some (f.newcomer site call type attached).id := by
  obtain ⟨o, present, rfl⟩ := held
  intro same
  obtain ⟨t, form⟩ := Value.local?_eq_some.mp same
  have kept : site.detach type o.debug o.value = o.value := by
    simp [CallSite.detach, CallSite.value, Value.dropDebug_local, other]
  have detached : o.map (site.detach type) ∈ (f.mapOperands (site.detach type)).operands := by
    rw [operands_mapOperands]
    exact List.mem_map.mpr ⟨o, present, rfl⟩
  have below := lt_freshId_of_local detached (by rw [Operand.map_value, kept, form])
  exact Nat.lt_irrefl _ below

theorem calledId?_of_callee {target : Function} (callee : s.call.callee = target.value) :
    f.calledId? s = some target.id := by
  have end_ : f.castSource? target.value = none := rfl
  rw [calledId?, callee, stripCasts?, followCasts, end_]
  rfl

namespace Placed

variable {new : Instruction} {called : Function}

theorem recasts (placed : f.Placed site new g) (numbered : f.localIds.Nodup) (calls : new.Calls called)
    (uncast : ∀ t, f.castSource? (.local site.id t) = none)
    (apart : ∀ v, f.Holds v → v.local? ≠ some site.id → v.local? ≠ some new.id) (type : Ty) :
    f.Recasts (site.rename type new.value false) (g.mapOperands (site.rename type new.value)) where
  renames := by
    intro v
    rcases site.rename_cases type new.value false v with ⟨_, same⟩ | ⟨held, same | ⟨debug, _⟩⟩
    · exact .inl same
    · exact .inr ⟨by rw [held]; rfl, by rw [same]; rfl⟩
    · cases debug
  sources := by
    intro v held
    simp only [castSource?_eq] at uncast ⊢
    exact placed.source? Operation.castBase_passesOn numbered calls uncast apart type held

theorem earlier_call (placed : f.Placed site new g) (coherent : f.Coherent) {b : Block} (member : b ∈ f.blocks)
    (held : site.HeldBy b) (type : Ty) (listed : s ∈ f.callSites) (other : s.id ≠ site.id) :
    ∃ t ∈ (g.mapOperands (site.rename type new.value)).callSites,
      t.id = s.id ∧ t.call = s.call.mapOperands (site.rename type new.value) ∧ t.kind = s.kind := by
  obtain ⟨d, within, inside⟩ := List.mem_flatMap.mp listed
  rcases CallSite.cases_of_mem inside with ⟨i, carried, _, _, op, same⟩ | ⟨_, _, op, same⟩
  · obtain ⟨c, there, _, j, kept, _, unchanged⟩ := placed.insts d within i carried (by rw [same] at other; exact other)
    obtain rfl : j = i := unchanged fun _ _ phi => nomatch op.symm.trans phi
    obtain ⟨t, present, rest⟩ := Block.exists_site_of_call (b := c.mapOperands (site.rename type new.value))
      (List.mem_map.mpr ⟨j, kept, rfl⟩) (by rw [Instruction.mapOperands_op, op]; rfl)
    rw [same]
    exact ⟨t, List.mem_flatMap.mpr ⟨_, List.mem_map.mpr ⟨c, there, rfl⟩, present⟩, rest⟩
  · obtain ⟨c, there, _, term | ⟨here, _, _, successors, _⟩⟩ := placed.terms d within
    · obtain ⟨t, present, rest⟩ := Block.exists_site_of_invoke (b := c.mapOperands (site.rename type new.value))
        (by rw [Block.mapOperands_term, Terminal.mapOperands_op, term, op]; rfl)
      rw [same, ← term]
      exact ⟨t, List.mem_flatMap.mpr ⟨_, List.mem_map.mpr ⟨c, there, rfl⟩, present⟩, rest⟩
    · -- The site that is replaced is the invoke at the end of this very block.
      obtain rfl := block_eq_of_id coherent.numbered within member (here.trans held.1.symm)
      have ends := held.2
      rw [successors] at ends
      rw [same] at other
      exact absurd (ends.1 (by rw [op]; rfl)) other

theorem later_call (placed : f.Placed site new g) (calls : new.Calls called) (type : Ty)
    (listed : t ∈ (g.mapOperands (site.rename type new.value)).callSites) :
    (t.id = new.id ∧ t.call.callee = called.value) ∨
      ∃ s ∈ f.callSites, t.id = s.id ∧ t.kind = s.kind ∧ t.call = s.call.mapOperands (site.rename type new.value) := by
  obtain ⟨d, changed, inside⟩ := List.mem_flatMap.mp listed
  obtain ⟨c, within, rfl⟩ := List.mem_map.mp changed
  rcases CallSite.cases_of_mem inside with ⟨i, carried, _, _, op, same⟩ | ⟨_, _, op, same⟩
  · obtain ⟨j, there, rfl⟩ := List.mem_map.mp carried
    obtain ⟨e, before, call⟩ := Operation.call_of_mapOperands op
    rcases placed.origins c within j there with rfl | ⟨b, old, i, here, equal⟩
    · obtain ⟨_, e', op', callee⟩ := calls.rename site type j.value
      rw [op, Operation.call.injEq] at op'
      exact .inl ⟨by rw [same]; rfl, op'.2 ▸ callee⟩
    · obtain rfl : j = i := equal.2.resolve_right fun phis => phis.2 fun _ _ phi => nomatch before.symm.trans phi
      obtain ⟨s, present, number, same', kind⟩ := Block.exists_site_of_call here before
      refine .inr ⟨s, List.mem_flatMap.mpr ⟨b, old, present⟩, ?_, ?_, by rw [call, same']⟩
      · rw [same, number]
        rfl
      · rw [same, kind]
        rfl
  · obtain ⟨e, n, u, before, call⟩ := Terminator.invoke_of_mapOperands op
    rcases placed.ends c within with ⟨b, old, term⟩ | ⟨target, branch⟩
    · obtain ⟨s, present, number, same', kind⟩ := Block.exists_site_of_invoke (term ▸ before)
      refine .inr ⟨s, List.mem_flatMap.mpr ⟨b, old, present⟩, ?_, ?_, by rw [call, same']⟩
      · rw [same, number, ← term]
        rfl
      · rw [same, kind]
        rfl
    · exact nomatch before.symm.trans branch

/-- A replaced call is the only one that is gone, and the one in its place is the only one that has come. -/
theorem carries (placed : f.Placed site new g) (coherent : f.Coherent) {b : Block} (member : b ∈ f.blocks)
    (held : site.HeldBy b) (calls : new.Calls called) (unseen : new.id ∉ f.seen) (uncast : ∀ t, f.castSource? (.local site.id t) = none)
    (apart : ∀ v, f.Holds v → v.local? ≠ some site.id → v.local? ≠ some new.id) (type : Ty) :
    f.Carries [site.id] called.id (g.mapOperands (site.rename type new.value)) := by
  have recasts := placed.recasts coherent.numbered calls uncast apart type
  constructor
  · intro s listed stays
    obtain ⟨t, present, number, call, kind⟩ := placed.earlier_call coherent member held type listed
      fun equal => stays (List.mem_singleton.mpr equal)
    exact ⟨t, present, number, kind, recasts.calledId? (callee_held listed) (by rw [call]; rfl)⟩
  · intro t listed
    rcases placed.later_call calls type listed with ⟨number, callee⟩ | ⟨s, before, number, kind, call⟩
    · refine .inl ⟨calledId?_of_callee callee, fun s before equal => unseen ?_⟩
      rw [← number, equal]
      exact mem_seen_of_mem_localIds (CallSite.id_mem_localIds before)
    · exact .inr ⟨s, before, number, kind, recasts.calledId? (callee_held before) (by rw [call]; rfl)⟩

end Placed

end Function
end CallFusion.Ir
