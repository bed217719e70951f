import CallFusion.Proofs.Ir.Buffers
import CallFusion.Proofs.Merge.Naming
import CallFusion.Proofs.Merge.Planning

/-!
Sizes of copies. A copy takes the whole size of the alloca that its buffer points into, as long as that is found and
not empty. So it stays inside where the buffer is the start of the memory, and leaves it where the buffer is a part
further in.
-/

namespace CallFusion

open Ir

open MarshallingPlan (bufferOf)

variable {σ : Type}

namespace MarshallingPlan

/-- Copies end inside the memory that their buffers point into, however the pointers are made. -/
def StaysInside (m : Module) (f : Function) (plan : MarshallingPlan) : Prop :=
  ∀ e ∈ plan.copies, ∀ elem count d steps size align c, f.PointsInto m.types elem count d steps (bufferOf e.1) →
    extent m.types elem = .sized size align → elements? count = some c → d + e.2.toNat ≤ size.toNat * c

end MarshallingPlan

section

variable {m : Module} {f : Function} {payload : Payload} {site : CallSite} {buffer : Param} {answer : UInt64}
  {noted : Diagnostics}

theorem copySize_eq (sized : MarshallingPlan.copySize m f payload site buffer = .ok (answer, noted)) :
    answer = (f.payloadSize? m.types (bufferOf site)).getD 0 ∧ answer ≠ 0 ∨
      (f.payloadSize? m.types (bufferOf site)).getD 0 = 0 ∧ answer = payload.size := by
  unfold MarshallingPlan.copySize at sized
  dsimp only at sized
  split at sized
  · cases sized
  · split at sized
    · next attrs v first =>
      have held : bufferOf site = v := by rw [bufferOf, first]; rfl
      rw [held]
      split at sized
      · cases sized
      · split at sized
        · cases sized
        · split at sized
          · next found =>
            cases sized
            exact .inl ⟨rfl, by simpa using found⟩
          · next empty =>
            cases sized
            exact .inr ⟨by simpa using empty, rfl⟩
    · cases sized

variable {elem : Ty} {count : Option Value} {d c : Int} {steps : Nat} {size align : UInt64}

theorem copySize_of_pointsInto (sized : MarshallingPlan.copySize m f payload site buffer = .ok (answer, noted))
    (into : f.PointsInto m.types elem count d steps (bufferOf site)) (near : steps < 64)
    (element : extent m.types elem = .sized size align) (filled : 0 < size) (counted : elements? count = some c)
    (positive : 1 ≤ c) :
    (answer.toNat : Int) ≤ size.toNat * c ∧ (size.toNat * c < 2 ^ 64 → (answer.toNat : Int) = size.toNat * c) := by
  obtain ⟨whole, found, below, exact⟩ := allocatedType_size element counted positive
  have traced : (f.payloadSize? m.types (bufferOf site)).getD 0 = whole := by
    rw [into.payloadSize? near, found, Option.getD_some]
  rcases copySize_eq sized with ⟨same, _⟩ | ⟨none, other⟩
  · rw [same, traced]
    exact ⟨below, exact⟩
  · -- Only a size that wraps to zero is not found, and what is given instead is less than that.
    have least : (1 : Int) ≤ size.toNat * c := by
      have some : 1 ≤ size.toNat := UInt64.lt_iff_toNat_lt.mp filled
      exact one_le_mul_of_one_le_of_one_le (by exact_mod_cast some) positive
    have wraps : ¬ size.toNat * c < 2 ^ 64 := fun small => by
      have zero := exact small
      rw [← traced, none] at zero
      have : (UInt64.toNat 0 : Int) = 0 := rfl
      omega
    have word := answer.toNat_lt
    exact ⟨by omega, fun small => absurd small wraps⟩

end

/-- The copy for a buffer that is traced to an alloca takes no more than that reserves, and takes all of it if that is
less than a word can tell. So it stays inside if the buffer does not point further in, and then only. -/
theorem copy_within_alloca {bridge : Bridge σ} {m : Module} {f : Function} {names : MarshallingNames} {payload : Payload}
    {l l' : Locator σ} {plan : MarshallingPlan} {ds : Diagnostics}
    (planned : (MarshallingPlan.make bridge m (some f) names payload).run l = ((some plan, ds), l'))
    {e : CallSite × UInt64} (listed : e ∈ plan.copies) {elem : Ty} {count : Option Value} {d : Int} {steps : Nat}
    (into : f.PointsInto m.types elem count d steps (bufferOf e.1)) (near : steps < 64) {size align : UInt64}
    (sized : extent m.types elem = .sized size align) (filled : 0 < size) {c : Int} (counted : elements? count = some c)
    (positive : 1 ≤ c) :
    (e.2.toNat : Int) ≤ size.toNat * c ∧ (d ≤ 0 → d + e.2.toNat ≤ size.toNat * c) ∧
      (size.toNat * c < 2 ^ 64 → (e.2.toNat : Int) = size.toNat * c ∧ (d + e.2.toNat ≤ size.toNat * c ↔ d ≤ 0)) := by
  obtain ⟨none, _⟩ | ⟨_, same, made, _⟩ := MarshallingPlan.make_cases planned
  · cases none
  cases same
  obtain ⟨_, _, _, answered⟩ := made.sizes e listed
  obtain ⟨below, exact⟩ := copySize_of_pointsInto answered into near sized filled counted positive
  exact ⟨below, fun start => by omega, fun small => ⟨exact small, by rw [exact small]; omega⟩⟩

namespace Holding

open Halves (send locator findCall_send)

def sending (makers : List Instruction) (buffer : Value) : CallSite :=
  ⟨2, some makers.length, makers.length + 3, .number 0, .void, { callee := send.value, args := [.value [] buffer] }, [], none⟩

def holding (makers : List Instruction) (buffer : Value) : Function where
  id := ⟨7⟩
  symbol := .named "f"
  result := .void
  params := [⟨0, .named "result", .bytePointer, []⟩, ⟨1, .named "args", .bytePointer, []⟩]
  blocks := [{
    id := 2
    ident := .named "entry"
    insts := makers ++ [⟨makers.length + 3, .number 0, .void, .call "" (sending makers buffer).call, []⟩]
    term := ⟨makers.length + 4, .number 0, .void, .ret none, []⟩ }]

def holder (makers : List Instruction) (buffer : Value) : Module where
  functions := [send, holding makers buffer]

variable {makers : List Instruction} {buffer : Value}

theorem callSites_holding (silent : ∀ i ∈ makers, i.call? = none) :
    (holding makers buffer).callSites = [sending makers buffer] := by
  have none : makers.zipIdx.filterMap (fun p => p.1.call?.map fun c => CallSite.mk 2 (some p.2) p.1.id p.1.ident p.1.type c
      p.1.attachments none) = [] := by
    refine List.filterMap_eq_nil_iff.mpr fun p listed => ?_
    rw [silent p.1 (List.fst_mem_of_mem_zipIdx listed)]
    rfl
  simp [Function.callSites, holding, Block.callSites, List.zipIdx_append, none]
  rfl

theorem holding_planned (silent : ∀ i ∈ makers, i.call? = none) (pointer : buffer.type.isPointer = true) :
    ∃ plan ds l, (MarshallingPlan.make Bridge.inProcess (holder makers buffer) (some (holding makers buffer))
      Profile.go.marshalling Profile.go.payload).run locator = ((some plan, ds), l) ∧
      plan.copies = [(sending makers buffer, plan.sendSize)] ∧
      ∃ noted p, MarshallingPlan.copySize (holder makers buffer) (holding makers buffer) .standard (sending makers buffer) p =
        .ok (plan.sendSize, noted) := by
  have only : ∀ site ∈ (holding makers buffer).callSites, site = sending makers buffer := fun site listed =>
    List.mem_singleton.mp (callSites_holding silent ▸ listed)
  obtain ⟨l, receive, send⟩ := findCall_send (m := holder makers buffer) (f := holding makers buffer)
    (fun site listed => only site listed ▸ rfl) (fun site listed => only site listed ▸ rfl)
    (callSites_holding silent ▸ List.cons_ne_nil _ _)
  have given : (if Profile.go.payload.size = 0 then Payload.standard else Profile.go.payload) = .standard := by decide
  obtain ⟨size, noted, sized⟩ : ∃ size noted, MarshallingPlan.copySize (holder makers buffer) (holding makers buffer) .standard
      (sending makers buffer) ⟨0, .named "result", .bytePointer, []⟩ = .ok (size, noted) :=
    MarshallingPlan.copySize_ok rfl rfl pointer rfl _
  rw [callSites_holding silent] at send
  obtain ⟨ds, made⟩ := MarshallingPlan.make_of_send Profile.go.marshalling Profile.go.payload rfl rfl receive send (given ▸ sized)
  exact ⟨_, ds, l, made, rfl, _, _, sized⟩

/-- The plan for a buffer lets a copy run out of the alloca that it points into. -/
def Overruns (makers : List Instruction) (buffer : Value) : Prop :=
  ∃ plan ds l, (MarshallingPlan.make Bridge.inProcess (holder makers buffer) (some (holding makers buffer))
    Profile.go.marshalling Profile.go.payload).run locator = ((some plan, ds), l) ∧
    ¬ plan.StaysInside (holder makers buffer) (holding makers buffer)

theorem overruns_of_traced (silent : ∀ i ∈ makers, i.call? = none) (pointer : buffer.type.isPointer = true) {elem : Ty}
    {d c : Int} {steps : Nat} {count : Option Value} {size align t : UInt64}
    (into : (holding makers buffer).PointsInto [] elem count d steps buffer) (sized : extent [] elem = .sized size align)
    (counted : elements? count = some c) (traced : ((holding makers buffer).payloadSize? [] buffer).getD 0 = t)
    (outside : size.toNat * c < d + (if t = 0 then 24 else t).toNat) : Overruns makers buffer := by
  obtain ⟨plan, ds, l, planned, copies, noted, p, copied⟩ := holding_planned silent pointer
  refine ⟨plan, ds, l, planned, fun inside => ?_⟩
  have within := inside (sending makers buffer, plan.sendSize) (copies ▸ List.mem_singleton.mpr rfl) elem count d steps
    size align c into sized counted
  have answer : plan.sendSize = if t = 0 then 24 else t := by
    rcases copySize_eq copied with ⟨same, filled⟩ | ⟨none, other⟩
    · obtain rfl := same.trans traced
      rw [if_neg filled]
    · rw [other, if_pos (traced.symm.trans none)]
      rfl
  dsimp only at within
  rw [answer] at within
  omega

def pair : Ty := .array 2 (.int 64)

/-- Two words, and the address of the second. -/
def second : List Instruction :=
  [⟨3, .named "a", .pointer pair 0, .alloca [] pair none 0 0, []⟩,
    ⟨4, .named "p", .pointer (.int 64) 0,
      .gep false pair (.local 3 (.pointer pair 0)) [.const 0 (.int (.int 64) 0), .const 1 (.int (.int 64) 1)], []⟩]

/-- Nothing at all. -/
def void : List Instruction := [⟨3, .named "a", .pointer (.struct false []) 0, .alloca [] (.struct false []) none 0 0, []⟩]

/-- A word, none times. -/
def never : List Instruction :=
  [⟨3, .named "a", .pointer (.int 64) 0, .alloca [] (.int 64) (some (.const 0 (.int (.int 64) 0))) 0 0, []⟩]

def cast (k : Nat) : Instruction :=
  ⟨k + 4, .number 0, .bytePointer, .cast .bitcast (.local (k + 3) .bytePointer) .bytePointer, []⟩

/-- A byte, and so many casts of its address. -/
def chain (length : Nat) : List Instruction :=
  ⟨3, .number 0, .bytePointer, .alloca [] (.int 8) none 0 0, []⟩ :: (List.range length).map cast

theorem extent_word : extent [] (.int 64) = .sized 8 8 := by
  rw [extent]
  decide

theorem extent_pair : extent [] pair = .sized 16 8 := extent_array extent_word 2

theorem extent_empty : extent [] (.struct false []) = .sized 0 1 := by
  rw [extent, fieldsExtent]
  decide

theorem extent_byte : extent [] (.int 8) = .sized 1 1 := by
  rw [extent]
  decide

theorem second_into : (holding second (.local 4 (.pointer (.int 64) 0))).PointsInto [] pair none 8 1
    (.local 4 (.pointer (.int 64) 0)) := by
  have start : (holding second (.local 4 (.pointer (.int 64) 0))).PointsInto [] pair none 0 0 (.local 3 (.pointer pair 0)) :=
    .reserved rfl rfl
  have whole : extent [] (.array 2 (.int 64)) = .sized 16 8 := extent_pair
  have moved : addressOffset? [] pair [.const 0 (.int (.int 64) 0), .const 1 (.int (.int 64) 1)] = some 8 := by
    simp [addressOffset?, Value.index?, Ty.unalias, whole, extent_word, pathOffset?, partAt?, pair, Ty.body, Extent.size?]
  exact .address rfl rfl moved start

theorem void_into : (holding void (.local 3 (.pointer (.struct false []) 0))).PointsInto [] (.struct false []) none 0 0
    (.local 3 (.pointer (.struct false []) 0)) :=
  .reserved rfl rfl

theorem never_into : (holding never (.local 3 (.pointer (.int 64) 0))).PointsInto [] (.int 64)
    (some (.const 0 (.int (.int 64) 0))) 0 0 (.local 3 (.pointer (.int 64) 0)) :=
  .reserved rfl rfl

theorem chain_instruction {length k : Nat} (within : k < length) (buffer : Value) :
    (holding (chain length) buffer).instruction? (k + 4) = some (cast k) := by
  have found : (List.range length).find? ((fun i : Instruction => i.id == k + 4) ∘ cast) = some k := by
    refine List.find?_range_eq_some.mpr ⟨?_, List.mem_range.mpr within, fun j before => ?_⟩
    · simp [cast]
    · simp [cast]
      omega
  have insts : (holding (chain length) buffer).instructions = chain length ++
      [⟨(chain length).length + 3, .number 0, .void, .call "" (sending (chain length) buffer).call, []⟩] :=
    List.append_nil _
  rw [Function.instruction?, insts, List.find?_append, chain, List.find?_cons_of_neg (by simp), List.find?_map, found]
  rfl

theorem chain_into (length : Nat) : (holding (chain length) (.local (length + 3) .bytePointer)).PointsInto [] (.int 8) none 0
    length (.local (length + 3) .bytePointer) := by
  have each : ∀ k ≤ length, (holding (chain length) (.local (length + 3) .bytePointer)).PointsInto [] (.int 8) none 0 k
      (.local (k + 3) .bytePointer) := by
    intro k within
    induction k with
    | zero => exact .reserved rfl rfl
    | succ k ih => exact .cast (chain_instruction within _) rfl (ih (by omega))
  exact each length (Nat.le_refl _)

theorem chain_untraced {length : Nat} (far : 64 ≤ length) :
    (holding (chain length) (.local (length + 3) .bytePointer)).payloadSize? [] (.local (length + 3) .bytePointer) = none := by
  have bytes : tellingPointee? [] .bytePointer = none := by
    simp [tellingPointee?, Ty.bytePointer, Ty.pointee?, Ty.unalias, Ty.same]
  have untold : (holding (chain length) (.local (length + 3) .bytePointer)).payloadType? []
      (.local (length + 3) .bytePointer) = none := by
    refine @Function.payloadAt_of_bytes _ _ (fun k => .local (k + 3) .bytePointer) length (fun _ => bytes)
      (fun k within => ?_) _ _ far (Nat.le_refl length)
    have found := chain_instruction within (.local (length + 3) .bytePointer)
    simp only [Function.provenance, found]
    rfl
  rw [Function.payloadSize?, untold, Option.bind_none]

theorem silent_chain (length : Nat) : ∀ i ∈ chain length, i.call? = none := by
  simp [chain, cast, Instruction.call?]

/-- A copy for a part of an alloca runs out of it, and so do those for allocas that are empty or out of reach. -/
theorem copies_overrun : Overruns second (.local 4 (.pointer (.int 64) 0)) ∧
    Overruns void (.local 3 (.pointer (.struct false []) 0)) ∧ Overruns never (.local 3 (.pointer (.int 64) 0)) ∧
    Overruns (chain 64) (.local 67 .bytePointer) := by
  refine ⟨?_, ?_, ?_, ?_⟩
  · refine overruns_of_traced (by simp [second, Instruction.call?]) rfl second_into extent_pair rfl (t := 16) ?_ (by decide)
    rw [second_into.payloadSize? (by decide)]
    exact congrArg (fun extent => (Extent.size? extent).getD 0) extent_pair
  · refine overruns_of_traced (by simp [void, Instruction.call?]) rfl void_into extent_empty rfl (t := 0) ?_ (by decide)
    rw [void_into.payloadSize? (by decide)]
    exact congrArg (fun extent => (Extent.size? extent).getD 0) extent_empty
  · refine overruns_of_traced (by simp [never, Instruction.call?]) rfl never_into extent_word rfl (t := 8) ?_ (by decide)
    rw [never_into.payloadSize? (by decide)]
    exact congrArg (fun extent => (Extent.size? extent).getD 0) extent_word
  · refine overruns_of_traced (silent_chain 64) rfl (chain_into 64) extent_byte rfl (t := 0) ?_ (by decide)
    rw [chain_untraced (Nat.le_refl 64)]
    rfl

/-- The copy for the whole of an alloca stays inside. -/
theorem whole_alloca_copied : ∃ plan ds l,
    (MarshallingPlan.make Bridge.inProcess (holder second (.local 3 (.pointer pair 0)))
      (some (holding second (.local 3 (.pointer pair 0)))) Profile.go.marshalling Profile.go.payload).run locator =
        ((some plan, ds), l) ∧ (plan.sendSize.toNat : Int) = 16 ∧ (0 : Int) + plan.sendSize.toNat ≤ 16 := by
  obtain ⟨plan, ds, l, planned, copies, _⟩ := @holding_planned second (.local 3 (.pointer pair 0))
    (by simp [second, Instruction.call?]) rfl
  have into : (holding second (.local 3 (.pointer pair 0))).PointsInto [] pair none 0 0 (.local 3 (.pointer pair 0)) :=
    .reserved rfl rfl
  obtain ⟨_, inside, exact⟩ := copy_within_alloca planned (e := (sending second (.local 3 (.pointer pair 0)), plan.sendSize))
    (copies ▸ List.mem_singleton.mpr rfl) into (by decide) extent_pair (by decide) rfl (Int.le_refl 1)
  exact ⟨plan, ds, l, planned, (exact (by decide)).1, inside (Int.le_refl 0)⟩

end Holding

end CallFusion
