import CallFusion.Proofs.Ir.Sites
import CallFusion.Proofs.Ir.Strings

/-!
The strings that the arguments of a call point at. When another call site is replaced, an address leads back to the same
global as before, also where it was computed from the result that has gone.
-/

namespace CallFusion.Ir

def Operation.addressBase? : Operation Value → Option Value
  | .cast .bitcast x _ => some x
  | .gep _ _ x _ => some x
  | _ => none

theorem Operation.addressBase_passesOn : PassesOn addressBase? where
  renamed := by
    intro op r
    cases op with
    | cast kind => cases kind <;> rfl
    | _ => rfl
  phi := fun _ _ => rfl
  call := fun _ _ => rfl

theorem Operation.addressBase_operand (op : Operation Value) (v : Value) (passed : op.addressBase? = some v) :
    .code v ∈ op.operands := by
  unfold addressBase? at passed
  split at passed
  · cases passed
    exact List.mem_singleton.mpr rfl
  · cases passed
    exact List.mem_cons_self
  · cases passed

namespace CallSite

variable {f : Function} {s t : CallSite} {i : Nat}

theorem argument_mapOperands {r : Bool → Value → Value} (call : t.call = s.call.mapOperands r) :
    (t.arg? i).bind Argument.value? = ((s.arg? i).bind Argument.value?).map (r false) := by
  have args : t.arg? i = (s.arg? i).map (Argument.mapOperands r) := by
    simp only [arg?, args, call, Call.mapOperands, List.getElem?_map, Option.map_map, Function.comp_def,
      Argument.bare_mapOperands]
  rw [args]
  cases s.arg? i with
  | none => rfl
  | some a => cases a <;> rfl

theorem argument_held (listed : s ∈ f.callSites) {v : Value} (given : (s.arg? i).bind Argument.value? = some v) :
    f.Holds v := by
  obtain ⟨a, passed, value⟩ := Option.bind_eq_some_iff.mp given
  obtain ⟨old, member, bare⟩ := List.mem_map.mp (List.mem_of_getElem? passed)
  have slot : .code v ∈ old.operands := by
    rw [← Argument.operands_bare, bare]
    cases a with
    | value attrs w =>
      cases value
      exact List.mem_singleton.mpr rfl
    | _ => cases value
  exact ⟨.code v, argOperands_of_mem listed (List.mem_flatMap.mpr ⟨old, member, slot⟩), rfl⟩

end CallSite

namespace Function

variable {f g h : Function} {site s t : CallSite} {new : Instruction} {called : Function} {m : Module} {steps : Nat}

theorem addressSource?_local (f : Function) (id : LocalId) (type : Ty) :
    f.addressSource? (.local id type) = f.source? Operation.addressBase? (.local id type) := rfl

theorem addressSource?_const {v w : Value} (outside : v.local? = none) (found : f.addressSource? v = some w) :
    ∃ mention c, w = .const mention c := by
  unfold addressSource? at found
  split at found
  · cases outside
  · exact ⟨_, _, (Option.some.inj found).symm⟩
  · exact ⟨_, _, (Option.some.inj found).symm⟩
  · exact ⟨_, _, (Option.some.inj found).symm⟩
  · cases found

theorem addressSource?_outside {v : Value} (outside : v.local? = none) (f g : Function) :
    f.addressSource? v = g.addressSource? v := by
  cases v with
  | «local» id type => cases outside
  | const mention c =>
    cases c with
    | cast op source target => cases op <;> rfl
    | _ => rfl
  | _ => rfl

/-- Addresses start from what slots hold, and go on within constants. -/
def Reads (f : Function) (v : Value) : Prop := f.Holds v ∨ ∃ mention c, v = .const mention c

theorem Reads.addressSource? {v w : Value} (found : f.addressSource? v = some w) : f.Reads w := by
  cases outside : v.local? with
  | none => exact .inr (addressSource?_const outside found)
  | some id =>
    obtain ⟨t, rfl⟩ := Value.local?_eq_some.mp outside
    exact .inl (Holds.source? Operation.addressBase_operand (addressSource?_local f id t ▸ found))

theorem addressSource?_congr (blocks : h.blocks = g.blocks) (v : Value) : h.addressSource? v = g.addressSource? v := by
  have insts : h.instruction? = g.instruction? := by
    funext id
    rw [instruction?, instruction?, instructions, instructions, blocks]
  unfold addressSource?
  rw [insts]

/-- A call site has been exchanged for a call of `called`: `g` has the new call in its place, and `h` the slots
renamed. -/
structure Exchanged (f : Function) (site : CallSite) (new : Instruction) (called : Function) (type : Ty) (h : Function) :
    Prop where
  coherent : f.Coherent
  listed : site ∈ f.callSites
  calls : new.Calls called
  unseen : new.id ∉ f.seen
  apart : ∀ v, f.Holds v → v.local? ≠ some site.id → v.local? ≠ some new.id
  numbered : h.localIds.Nodup
  removed : site.id ∉ h.localIds
  built : ∃ g, f.Placed site new g ∧ h.blocks = (g.mapOperands (site.rename type new.value)).blocks

namespace Exchanged

variable {type : Ty}

theorem addressSource? (exchanged : f.Exchanged site new called type h) {v : Value} (reads : f.Reads v) :
    h.addressSource? (site.rename type new.value false v) =
      (f.addressSource? v).map (site.rename type new.value false) := by
  obtain ⟨g, placed, blocks⟩ := exchanged.built
  rw [addressSource?_congr blocks]
  have passes := Operation.addressBase_passesOn
  cases outside : v.local? with
  | some id =>
    obtain ⟨t, rfl⟩ := Value.local?_eq_some.mp outside
    have held : f.Holds (.local id t) := reads.resolve_right (by simp)
    have source := placed.source? passes exchanged.coherent.numbered exchanged.calls
      (source?_site passes exchanged.coherent.numbered exchanged.listed) exchanged.apart type held
    rw [addressSource?_local, ← source]
    rcases site.rename_cases type new.value false (.local id t) with ⟨_, same⟩ | ⟨_, same | ⟨debug, _⟩⟩
    · rw [same, addressSource?_local]
    · rw [same, Instruction.value, addressSource?_local]
    · cases debug
  | none =>
    have kept : ∀ w : Value, w.local? = none → site.rename type new.value false w = w := fun w none =>
      site.rename_of_ne type new.value (by simp [none]) false
    rw [kept v outside, addressSource?_outside outside _ f]
    cases found : f.addressSource? v with
    | none => rfl
    | some w =>
      obtain ⟨mention, c, rfl⟩ := addressSource?_const outside found
      rw [Option.map_some, kept _ rfl]

theorem globalBehind? (exchanged : f.Exchanged site new called type h) {v : Value} (reads : f.Reads v) :
    h.globalBehind? m steps (site.rename type new.value false v) = f.globalBehind? m steps v := by
  have symbols : ∀ v, (site.rename type new.value false v).symbol? = v.symbol? := by
    intro v
    rcases site.rename_cases type new.value false v with ⟨_, same⟩ | ⟨here, same | ⟨debug, _⟩⟩
    · rw [same]
    · obtain ⟨t, rfl⟩ := Value.local?_eq_some.mp here
      rw [same]
      rfl
    · cases debug
  induction steps generalizing v with
  | zero => rw [Function.globalBehind?, Function.globalBehind?, symbols]
  | succ steps ih =>
    rw [Function.globalBehind?, Function.globalBehind?, symbols, exchanged.addressSource? reads]
    cases source : f.addressSource? v with
    | none => rfl
    | some w => simp only [Option.map_some, Option.bind_some, ih (Reads.addressSource? source)]

theorem stringOperand? (exchanged : f.Exchanged site new called type h) {v : Value} (held : f.Holds v) :
    m.stringOperand? h (site.rename type new.value false v) = m.stringOperand? f v := by
  rw [Module.stringOperand?, Module.stringOperand?, exchanged.globalBehind? (.inl held)]

theorem argumentString (exchanged : f.Exchanged site new called type h) (listed : s ∈ f.callSites)
    (call : t.call = s.call.mapOperands (site.rename type new.value)) (i : Nat) :
    ((t.arg? i).bind Argument.value?).bind (m.stringOperand? h) =
      ((s.arg? i).bind Argument.value?).bind (m.stringOperand? f) := by
  rw [CallSite.argument_mapOperands call]
  cases given : (s.arg? i).bind Argument.value? with
  | none => rw [Option.map_none, Option.bind_none, Option.bind_none]
  | some v =>
    rw [Option.map_some, Option.bind_some, Option.bind_some, exchanged.stringOperand? (CallSite.argument_held listed given)]

theorem recasts (exchanged : f.Exchanged site new called type h) : f.Recasts (site.rename type new.value false) h := by
  obtain ⟨g, placed, blocks⟩ := exchanged.built
  have numbered := exchanged.coherent.numbered
  have recasts := placed.recasts numbered exchanged.calls (castSource?_site numbered exchanged.listed) exchanged.apart type
  refine ⟨recasts.renames, fun v held => ?_⟩
  rw [← recasts.sources v held, castSource?_eq, castSource?_eq]
  simp only [source?, instruction?, instructions, blocks]

theorem earlier (exchanged : f.Exchanged site new called type h) (listed : s ∈ f.callSites) (other : s.id ≠ site.id) :
    ∃ t ∈ h.callSites, t.id = s.id ∧ h.calledId? t = f.calledId? s ∧
      t.call = s.call.mapOperands (site.rename type new.value) := by
  obtain ⟨g, placed, blocks⟩ := exchanged.built
  obtain ⟨b, member, inside⟩ := List.mem_flatMap.mp exchanged.listed
  obtain ⟨t, present, number, call, _⟩ :=
    placed.earlier_call exchanged.coherent member (CallSite.heldBy_of_mem inside) type listed other
  refine ⟨t, ?_, number, exchanged.recasts.calledId? (callee_held listed) (by rw [call]; rfl), call⟩
  rw [callSites, blocks]
  exact present

theorem later (exchanged : f.Exchanged site new called type h) (listed : t ∈ h.callSites) :
    (t.id = new.id ∧ h.calledId? t = some called.id) ∨
      ∃ s ∈ f.callSites, s.id ≠ site.id ∧ t.id = s.id ∧ h.calledId? t = f.calledId? s ∧
        t.call = s.call.mapOperands (site.rename type new.value) := by
  obtain ⟨g, placed, blocks⟩ := exchanged.built
  have present : t ∈ (g.mapOperands (site.rename type new.value)).callSites := by
    rw [callSites, ← blocks]
    exact listed
  rcases placed.later_call exchanged.calls type present with ⟨number, callee⟩ | ⟨s, before, number, _, call⟩
  · exact .inl ⟨number, calledId?_of_callee callee⟩
  · refine .inr ⟨s, before, fun gone => ?_, number, exchanged.recasts.calledId? (callee_held before) (by rw [call]; rfl), call⟩
    exact exchanged.removed (gone ▸ number ▸ CallSite.id_mem_localIds listed)

end Exchanged
end Function
end CallFusion.Ir
