import CallFusion.Proofs.Ir.Callees
import CallFusion.Proofs.Ir.Replacement

/-!
Where values come from. A cast or an address computation passes one of its operands on, a call or a phi does not.
Replacing a call site leaves all such steps as they were, up to the name of the result.
-/

namespace CallFusion.Ir

/-- A way to read off an operation the operand that it passes on. -/
structure Operation.PassesOn (base : Operation Value → Option Value) : Prop where
  renamed : ∀ op (r : Bool → Value → Value), base (op.mapOperands r) = (base op).map (r false)
  phi : ∀ flags incoming, base (.phi flags incoming) = none
  call : ∀ tail c, base (.call tail c) = none

namespace Function

variable {f g : Function} {site s : CallSite} {new i : Instruction} {base : Operation Value → Option Value}
  {id : LocalId} {x : Value}

def source? (f : Function) (base : Operation Value → Option Value) : Value → Option Value
  | .local id _ => (f.instruction? id).bind fun i => base i.op
  | _ => none

theorem source?_eq_some_iff (numbered : f.localIds.Nodup) {type : Ty} :
    f.source? base (.local id type) = some x ↔ ∃ i ∈ f.instructions, i.id = id ∧ base i.op = some x := by
  rw [source?, Option.bind_eq_some_iff]
  constructor
  · rintro ⟨i, found, passed⟩
    exact ⟨i, List.mem_of_find?_eq_some found, by simpa using List.find?_some found, passed⟩
  · rintro ⟨i, carried, rfl, passed⟩
    exact ⟨i, instruction?_of_mem numbered carried, passed⟩

theorem source?_site (passes : Operation.PassesOn base) (numbered : f.localIds.Nodup) (listed : s ∈ f.callSites)
    (type : Ty) : f.source? base (.local s.id type) = none := by
  obtain ⟨b, member, inside⟩ := List.mem_flatMap.mp listed
  rw [Option.eq_none_iff_forall_ne_some]
  intro x found
  obtain ⟨i, carried, number, passed⟩ := (source?_eq_some_iff numbered).mp found
  obtain ⟨c, within, also⟩ := List.mem_flatMap.mp carried
  rcases CallSite.cases_of_mem inside with ⟨j, here, _, _, op, same⟩ | ⟨_, _, _, same⟩
  · have again := instruction?_of_mem numbered (List.mem_flatMap.mpr ⟨b, member, here⟩)
    rw [same] at number
    have equal : i = j := Option.some.inj ((instruction?_of_mem numbered carried).symm.trans (number ▸ again))
    rw [equal, op, passes.call] at passed
    cases passed
  · rw [same] at number
    have term : i.id ∈ b.ids := number ▸ b.term_id_mem_ids
    obtain rfl := block_unique numbered member within term (Block.inst_id_mem_ids also)
    have distinct := (List.nodup_cons.mp (block_ids_nodup numbered member)).2
    rw [List.nodup_append] at distinct
    exact distinct.2.2 i.id (List.mem_map.mpr ⟨i, also, rfl⟩) b.term.id (List.mem_singleton.mpr rfl) number

theorem source?_absent (absent : id ∉ f.localIds) (type : Ty) : f.source? base (.local id type) = none := by
  rw [Option.eq_none_iff_forall_ne_some]
  intro x found
  obtain ⟨i, known, _⟩ := Option.bind_eq_some_iff.mp found
  obtain ⟨b, member, inside⟩ := List.mem_flatMap.mp (List.mem_of_find?_eq_some known)
  have number : i.id = id := by simpa using List.find?_some known
  exact absent (number ▸ mem_localIds_of_block member (Block.inst_id_mem_ids inside))

theorem Holds.source? (operand : ∀ op y, base op = some y → .code y ∈ op.operands) {v : Value}
    (found : f.source? base v = some x) : f.Holds x := by
  unfold Function.source? at found
  split at found
  · obtain ⟨i, known, passed⟩ := Option.bind_eq_some_iff.mp found
    obtain ⟨b, member, inside⟩ := List.mem_flatMap.mp (List.mem_of_find?_eq_some known)
    refine ⟨.code x, List.mem_flatMap.mpr ⟨b, member, List.mem_append_left _ ?_⟩, rfl⟩
    exact List.mem_flatMap.mpr ⟨i, inside, operand i.op x passed⟩
  · cases found

namespace Placed

variable {called : Function}

theorem source? (placed : f.Placed site new g) (passes : Operation.PassesOn base) (numbered : f.localIds.Nodup)
    (calls : new.Calls called) (silent : ∀ t, f.source? base (.local site.id t) = none)
    (apart : ∀ v, f.Holds v → v.local? ≠ some site.id → v.local? ≠ some new.id) (type : Ty) {v : Value} (held : f.Holds v) :
    (g.mapOperands (site.rename type new.value)).source? base (site.rename type new.value false v) =
      (f.source? base v).map (site.rename type new.value false) := by
  have after := (mapOperands_coherent (site.rename_block type new.value) placed.coherent).numbered
  rcases site.rename_cases type new.value false v with ⟨other, same⟩ | ⟨here, same | ⟨debug, _⟩⟩
  · -- another value keeps its name, and the instruction that makes it is there before and after
    rw [same]
    cases v with
    | «local» id t =>
      apply Option.ext
      intro x
      rw [Option.map_eq_some_iff, source?_eq_some_iff after]
      simp only [source?_eq_some_iff numbered]
      constructor
      · rintro ⟨i, carried, number, passed⟩
        obtain ⟨d, changed, inside⟩ := List.mem_flatMap.mp carried
        obtain ⟨c, within, rfl⟩ := List.mem_map.mp changed
        obtain ⟨j, listed, rfl⟩ := List.mem_map.mp inside
        rw [Instruction.mapOperands_op, passes.renamed] at passed
        obtain ⟨y, before, renamed⟩ := Option.map_eq_some_iff.mp passed
        rcases placed.origins c within j listed with rfl | ⟨b, member, i, old, same⟩
        · exact absurd (congrArg some number.symm) (apart _ held other)
        · have equal : j = i := same.2.resolve_right fun phis => phis.2 fun _ _ phi => by
            rw [phi, passes.phi] at before
            cases before
          exact ⟨y, ⟨i, List.mem_flatMap.mpr ⟨b, member, old⟩, equal ▸ number, equal ▸ before⟩, renamed⟩
      · rintro ⟨y, ⟨i, carried, number, passed⟩, renamed⟩
        obtain ⟨b, member, inside⟩ := List.mem_flatMap.mp carried
        have different : i.id ≠ site.id := fun equal => other (congrArg some (number.symm.trans equal))
        obtain ⟨c, within, _, j, listed, _, kept⟩ := placed.insts b member i inside different
        obtain rfl : j = i := kept fun _ _ phi => by
          rw [phi, passes.phi] at passed
          cases passed
        refine ⟨j.mapOperands (site.rename type new.value), ?_, number, ?_⟩
        · exact List.mem_flatMap.mpr ⟨_, List.mem_map.mpr ⟨c, within, rfl⟩, List.mem_map.mpr ⟨j, listed, rfl⟩⟩
        · rw [Instruction.mapOperands_op, passes.renamed, passed, Option.map_some, renamed]
    | _ => rfl
  · -- the old result is the new one now, and a call passes nothing on
    obtain ⟨t, rfl⟩ := Value.local?_eq_some.mp here
    rw [same, silent, Option.map_none, Option.eq_none_iff_forall_ne_some]
    intro x found
    obtain ⟨i, carried, number, passed⟩ := (source?_eq_some_iff after).mp found
    obtain ⟨c, within, _, listed⟩ := placed.placed
    have own : new.mapOperands (site.rename type new.value) ∈ (g.mapOperands (site.rename type new.value)).instructions :=
      List.mem_flatMap.mpr ⟨_, List.mem_map.mpr ⟨c, within, rfl⟩, List.mem_map.mpr ⟨new, listed, rfl⟩⟩
    have again := instruction?_of_mem after own
    rw [Instruction.mapOperands_id, ← number, instruction?_of_mem after carried] at again
    obtain ⟨tail, d, op, _⟩ := calls.rename site type new.value
    rw [Option.some.inj again, op, passes.call] at passed
    cases passed
  · cases debug

end Placed

end Function
end CallFusion.Ir
