import CallFusion.Ir.Uses
import CallFusion.Proofs.Ir.Numbers

/-!
Uses of a local value. They are the operand slots that hold its number, redirecting them leaves none, and
redirecting a value that is not used changes nothing.
-/

namespace CallFusion.Ir

namespace Value

@[simp] theorem local?_local (id : LocalId) (t : Ty) : (Value.local id t).local? = some id := rfl

@[simp] theorem local?_block (id : LocalId) : (Value.block id).local? = none := rfl

@[simp] theorem local?_const (mention : Nat) (c : Constant) : (Value.const mention c).local? = none := rfl

@[simp] theorem block?_block (id : LocalId) : (Value.block id).block? = some id := rfl

@[simp] theorem block?_local (id : LocalId) (t : Ty) : (Value.local id t).block? = none := rfl

theorem local?_eq_some {v : Value} {id : LocalId} : v.local? = some id ↔ ∃ t, v = .local id t := by
  cases v <;> simp [local?]

theorem block?_eq_some {v : Value} {id : LocalId} : v.block? = some id ↔ v = .block id := by
  cases v <;> simp [block?]

@[simp] theorem same_local (v : Value) (id : LocalId) (t : Ty) : v.same (.local id t) = (v.local? == some id) := by
  cases v <;> simp [same, local?]

theorem local_same (id : LocalId) (t : Ty) (v : Value) : (Value.local id t).same v = (v.local? == some id) := by
  cases v with
  | «local» x u => simp [same, eq_comm]
  | _ => rfl

@[simp] theorem same_block (v : Value) (id : LocalId) : v.same (.block id) = (v.block? == some id) := by
  cases v <;> simp [same, block?]

def substitute (v : Value) (id : LocalId) (new : Value) : Value := if v.local? = some id then new else v

theorem substitute_block (b id : LocalId) (new : Value) : substitute (.block b) id new = .block b := rfl

theorem substitute_of_ne {id : LocalId} {v : Value} (other : v.local? ≠ some id) (new : Value) :
    v.substitute id new = v := if_neg other

theorem dropDebug_local (id : LocalId) (t : Ty) (debug : Bool) (v : Value) :
    dropDebug (.local id t) debug v = if debug = true ∧ v.local? = some id then .const 0 (.undef t) else v := by
  simp [dropDebug, type]

theorem dropDebug_code (old v : Value) : dropDebug old false v = v := rfl

theorem dropDebug_block (id : LocalId) (t : Ty) (debug : Bool) (b : LocalId) :
    dropDebug (.local id t) debug (.block b) = .block b := by
  simp [dropDebug_local]

end Value

namespace Function

variable (f : Function)

def Unused (id : LocalId) : Prop := ∀ o ∈ f.operands, o.value.local? ≠ some id

/-- No slot but debug slots hold the local of this number. -/
def UnusedInCode (id : LocalId) : Prop := ∀ o ∈ f.operands, o.debug = false → o.value.local? ≠ some id

theorem slots_operands : f.slots.map (fun s => (⟨s.2, s.1.debug⟩ : Operand Value)) = f.operands := by
  have insts : ∀ (b : Block) (is : List Instruction) (k : Nat),
      ((is.zipIdx k).flatMap fun p => p.1.op.operands.map fun o =>
        ((⟨b.id, some p.2, o.debug⟩ : Use), o.value)).map (fun s => (⟨s.2, s.1.debug⟩ : Operand Value)) =
        is.flatMap (·.op.operands) := by
    intro b is
    induction is with
    | nil => intro k; rfl
    | cons i is ih =>
      intro k
      simp only [List.zipIdx_cons, List.flatMap_cons, List.map_append, List.map_map, ih]
      congr 1
      exact List.map_id' i.op.operands
  simp only [slots, operands, Block.operands, List.map_flatMap, List.map_append, List.map_map]
  apply List.flatMap_congr
  intro b member
  congr 1
  · simpa only [List.map_flatMap, List.map_map] using insts b b.insts 0
  · exact List.map_id' b.term.op.operands

theorem mem_slots {v : Value} {debug : Bool} :
    (∃ s ∈ f.slots, s.2 = v ∧ s.1.debug = debug) ↔ ⟨v, debug⟩ ∈ f.operands := by
  rw [← slots_operands, List.mem_map]
  simp only [Operand.mk.injEq]

theorem useCount_eq_zero_iff {id : LocalId} {t : Ty} : f.useCount (.local id t) = 0 ↔ f.Unused id := by
  simp only [useCount, uses, List.length_map, List.length_eq_zero_iff, List.filter_eq_nil_iff, Value.same_local,
    beq_iff_eq]
  constructor
  · intro unused o present held
    obtain ⟨s, member, same, _⟩ := f.mem_slots.mpr present
    exact unused s member (same ▸ held)
  · intro unused s member held
    exact unused ⟨s.2, s.1.debug⟩ (f.mem_slots.mp ⟨s, member, rfl, rfl⟩) held

theorem codeUses_isEmpty_iff {id : LocalId} {t : Ty} :
    (f.codeUses (.local id t)).isEmpty = true ↔ f.UnusedInCode id := by
  simp only [codeUses, uses, List.isEmpty_iff, List.filter_eq_nil_iff, List.mem_map, List.mem_filter, Value.same_local,
    beq_iff_eq]
  constructor
  · intro unused o present code held
    obtain ⟨s, member, same, debug⟩ := f.mem_slots.mpr present
    exact unused s.1 ⟨s, ⟨member, same ▸ held⟩, rfl⟩ (by simp [debug, code])
  · rintro unused _ ⟨s, ⟨member, held⟩, rfl⟩ code
    exact unused ⟨s.2, s.1.debug⟩ (f.mem_slots.mp ⟨s, member, rfl, rfl⟩) (by simpa using code) held

theorem redirect_local (id : LocalId) (t : Ty) (new : Value) :
    f.redirect (.local id t) new = f.mapOperands fun _ v => v.substitute id new := by
  simp [redirect, Value.substitute]

variable {f}

theorem redirect_of_unused {id : LocalId} (unused : f.Unused id) (t : Ty) (new : Value) :
    f.redirect (.local id t) new = f := by
  rw [redirect_local]
  exact f.mapOperands_eq_self fun o present => Value.substitute_of_ne (unused o present) new

/-- A value is replaced when the types agree, and also when nothing uses it. -/
theorem replaceAllUses_eq {id : LocalId} {t : Ty} {new : Value}
    (allowed : t.same new.type = true ∨ f.Unused id) (m : Module) :
    f.replaceAllUses m (.local id t) new = .ok (f.redirect (.local id t) new, f.useCount (.local id t)) := by
  by_cases unused : f.Unused id
  · simp [replaceAllUses, f.useCount_eq_zero_iff.mpr unused, redirect_of_unused unused]
  · have used : f.useCount (.local id t) ≠ 0 := fun zero => unused (f.useCount_eq_zero_iff.mp zero)
    have agree : (Value.local id t).type.same new.type = true := allowed.resolve_right unused
    simp only [replaceAllUses, used, if_false, agree, if_true]

theorem unused_mapOperands {id : LocalId} {h : Bool → Value → Value}
    (gone : ∀ o ∈ f.operands, (h o.debug o.value).local? ≠ some id) : (f.mapOperands h).Unused id := by
  intro o present
  rw [operands_mapOperands] at present
  obtain ⟨old, member, rfl⟩ := List.mem_map.mp present
  exact gone old member

theorem unused_redirect {id : LocalId} {new : Value} (other : new.local? ≠ some id) (t : Ty) :
    (f.redirect (.local id t) new).Unused id := by
  rw [redirect_local]
  apply unused_mapOperands
  intro o _
  by_cases held : o.value.local? = some id
  · simpa [Value.substitute, held] using other
  · simp [Value.substitute, held]

end Function
end CallFusion.Ir
