import CallFusion.Ir.Parser.Type
import CallFusion.Ir.Payload
import CallFusion.Proofs.Ir.Layout
import Mathlib.Algebra.Order.Ring.Int

/-!
Buffers on the stack. A pointer is followed back through bitcasts and address computations to the alloca that it
points into, whose whole size is then taken, wherever in it the pointer points.
-/

namespace CallFusion.Ir

/-- The number that a constant index stands for, which is signed. -/
def Value.index? : Value → Option Int
  | .const _ (.int t n) =>
    match t.unalias with
    | .int bits => some (n.bmod (2 ^ bits.toNat))
    | _ => none
  | .const _ (.truth b) => some (-b.toNat)
  | _ => none

def Ty.body (table : TypeTable) (t : Ty) : Ty :=
  match t.unalias with
  | .named name =>
    match table.find? name with
    | some (.is body) => body
    | _ => .named name
  | u => u

/-- Where a field starts, and its type. Fields are placed one after the other from `offset` on. -/
def fieldAt? (table : TypeTable) (packed : Bool) : List Ty → Nat → UInt64 → Option (UInt64 × Ty)
  | [], _, _ => none
  | f :: fs, i, offset =>
    match extent table f with
    | .sized size align =>
      let start := alignTo offset (if packed then 1 else align)
      match i with
      | 0 => some (start, f)
      | i + 1 => fieldAt? table packed fs i (start + size)
    | _ => none

/-- How far into an aggregate a part of it starts, and the part's type. Indices of arrays may lead out of them. -/
def partAt? (table : TypeTable) (t : Ty) (i : Int) : Option (Int × Ty) :=
  match t.body table with
  | .array _ elem | .vector _ _ elem => (extent table elem).size?.map fun size => (size.toNat * i, elem)
  | .struct packed fields =>
    if i < 0 then none else (fieldAt? table packed fields i.toNat 0).map fun p => (p.1.toNat, p.2)
  | _ => none

/-- How far a path of indices leads into an aggregate. -/
def pathOffset? (table : TypeTable) : Ty → List Int → Option Int
  | _, [] => some 0
  | t, i :: is => (partAt? table t i).bind fun p => (pathOffset? table p.2 is).map (p.1 + ·)

/-- How far an address computation with constant indices moves, in bytes. The first index steps over whole elements. -/
def addressOffset? (table : TypeTable) (elem : Ty) (indices : List Value) : Option Int :=
  match indices.mapM Value.index? with
  | some (i :: is) =>
    (extent table elem).size?.bind fun size => (pathOffset? table elem is).map (size.toNat * i + ·)
  | _ => none

example : addressOffset? [] (.struct false [.int 8, .array 3 (.int 64)])
    [.const 0 (.int (.int 64) 2), .const 1 (.int (.int 32) 1), .const 2 (.int (.int 64) (-1))] = some (2 * 32 + 8 - 8) := by
  cbv

def elements? : Option Value → Option Int
  | none => some 1
  | some (.const _ (.int _ n)) => some n
  | some (.const _ (.truth b)) => some b.toNat
  | _ => none

/-- A pointer into the memory that an alloca reserves: so many bytes behind its start, and so many bitcasts and address
computations with constant indices away. -/
inductive Function.PointsInto (f : Function) (table : TypeTable) (elem : Ty) (count : Option Value) :
    Int → Nat → Value → Prop
  | reserved {id : LocalId} {t : Ty} {i : Instruction} {flags : List String} {align space : Nat}
      (found : f.instruction? id = some i) (op : i.op = .alloca flags elem count align space) :
      PointsInto f table elem count 0 0 (.local id t)
  | cast {id : LocalId} {t target : Ty} {i : Instruction} {x : Value} {d : Int} {steps : Nat}
      (found : f.instruction? id = some i) (op : i.op = .cast .bitcast x target)
      (behind : PointsInto f table elem count d steps x) : PointsInto f table elem count d (steps + 1) (.local id t)
  | address {id : LocalId} {t base : Ty} {i : Instruction} {x : Value} {d moved : Int} {steps : Nat} {inbounds : Bool}
      {indices : List Value} (found : f.instruction? id = some i) (op : i.op = .gep inbounds base x indices)
      (offset : addressOffset? table base indices = some moved) (behind : PointsInto f table elem count d steps x) :
      PointsInto f table elem count (d + moved) (steps + 1) (.local id t)

variable {f : Function} {table : TypeTable} {elem : Ty} {count : Option Value}

namespace Function

/-- Close to its alloca, a pointer designates the whole of what that reserves. -/
theorem PointsInto.payloadAt {d : Int} {steps : Nat} {v : Value} (into : f.PointsInto table elem count d steps v)
    {fuel : Nat} (near : steps < fuel) (seen : Option Ty) :
    f.payloadAt table fuel seen v = some (allocatedType elem count) := by
  obtain ⟨fuel, rfl⟩ := Nat.exists_eq_add_one_of_ne_zero (Nat.ne_of_gt (Nat.zero_lt_of_lt near))
  induction into generalizing fuel seen with
  | reserved found op => simp [Function.payloadAt, provenance, found, op]
  | cast found op _ ih =>
    obtain ⟨less, rfl⟩ := Nat.exists_eq_add_one_of_ne_zero (n := fuel) (by omega)
    simpa [Function.payloadAt, provenance, found, op] using ih _ less (by omega)
  | address found op _ _ ih =>
    obtain ⟨less, rfl⟩ := Nat.exists_eq_add_one_of_ne_zero (n := fuel) (by omega)
    simpa [Function.payloadAt, provenance, found, op] using ih _ less (by omega)

theorem PointsInto.payloadSize? {d : Int} {steps : Nat} {v : Value} (into : f.PointsInto table elem count d steps v)
    (near : steps < 64) : f.payloadSize? table v = (extent table (allocatedType elem count)).size? := by
  rw [Function.payloadSize?, Function.payloadType?, into.payloadAt near, Option.bind_some]

theorem payloadAt_of_bytes {chain : Nat → Value} {length : Nat} (bytes : ∀ k, tellingPointee? table (chain k).type = none)
    (derived : ∀ k < length, f.provenance (chain (k + 1)) = .derived (chain k)) {fuel k : Nat} (far : fuel ≤ k)
    (within : k ≤ length) : f.payloadAt table fuel none (chain k) = none := by
  induction fuel generalizing k with
  | zero => rfl
  | succ fuel ih =>
    obtain ⟨less, rfl⟩ := Nat.exists_eq_add_one_of_ne_zero (n := k) (by omega)
    simpa [Function.payloadAt, bytes, derived less (by omega)] using ih (by omega) (by omega)

end Function

theorem allocatedType_cases {c : Int} (counted : elements? count = some c) :
    (1 < c ∧ c < 2 ^ 64) ∧ allocatedType elem count = .array c.toNat.toUInt64 elem ∨
      ¬ (1 < c ∧ c < 2 ^ 64) ∧ allocatedType elem count = elem := by
  unfold elements? at counted
  split at counted
  · cases counted
    exact .inr ⟨by decide, rfl⟩
  · next n =>
    cases counted
    unfold allocatedType
    by_cases fits : 1 < c ∧ c < 2 ^ 64
    · exact .inl ⟨fits, if_pos fits⟩
    · exact .inr ⟨fits, if_neg fits⟩
  · next b =>
    cases counted
    exact .inr ⟨by cases b <;> decide, rfl⟩
  · cases counted

/-- What an alloca reserves is its count of elements, unless that is more than a word can tell; it never is less. -/
theorem allocatedType_size {size align : UInt64} {c : Int} (sized : extent table elem = .sized size align)
    (counted : elements? count = some c) (positive : 1 ≤ c) :
    ∃ whole, (extent table (allocatedType elem count)).size? = some whole ∧ (whole.toNat : Int) ≤ size.toNat * c ∧
      (size.toNat * c < 2 ^ 64 → (whole.toNat : Int) = size.toNat * c) := by
  rcases @allocatedType_cases elem _ _ counted with ⟨fits, same⟩ | ⟨other, same⟩
  · obtain ⟨n, rfl⟩ := Int.eq_ofNat_of_zero_le (Int.le_trans Int.one_nonneg positive)
    have word : n.toUInt64.toNat = n := Nat.mod_eq_of_lt (by omega)
    refine ⟨size * n.toUInt64, ?_, ?_⟩
    · rw [same, extent_array sized]
      rfl
    · rw [UInt64.toNat_mul, word]
      refine ⟨?_, fun small => ?_⟩
      · exact_mod_cast Nat.mod_le _ _
      · rw [Nat.mod_eq_of_lt (by exact_mod_cast small)]
        exact Int.natCast_mul _ _
  · refine ⟨size, by rw [same, sized]; rfl, le_mul_of_one_le_right (Int.natCast_nonneg _) positive, fun small => ?_⟩
    rcases Int.lt_or_eq_of_le positive with many | single
    · have huge : 2 ^ 64 ≤ c := Int.not_lt.mp fun less => other ⟨many, less⟩
      rcases Nat.eq_zero_or_pos size.toNat with zero | filled
      · rw [zero, Int.ofNat_zero, Int.zero_mul]
      · have more : c ≤ size.toNat * c := le_mul_of_one_le_left (by omega) (by exact_mod_cast filled)
        omega
    · rw [← single, Int.mul_one]

end CallFusion.Ir
