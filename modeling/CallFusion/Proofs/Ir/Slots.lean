import CallFusion.Proofs.Ir.Operands
import Mathlib.Data.List.Nodup

/-!
Operand slots by their places. Each slot of an instruction or a terminator has a place of its own: the field that holds it, the
entry of the field and the part of the entry. Numbering puts the place beside what a slot holds. Operations take any operands,
so a numbering leaves no slot out.
-/

namespace CallFusion.Ir

/-- Where an operand slot is in an instruction or a terminator. A field that is no list has one entry, and an entry that holds one
value has one part. -/
structure Spot where
  field : Nat
  entry : Nat
  part : Nat
  deriving DecidableEq, Repr

namespace Spot

variable {α β : Type}

def lone (field : Nat) (x : α) : Spot × α := (⟨field, 0, 0⟩, x)

def series (field : Nat) (xs : List α) : List (Spot × α) := xs.mapIdx fun i x => (⟨field, i, 0⟩, x)

def pairs (field : Nat) (ps : List (α × α)) : List ((Spot × α) × Spot × α) :=
  ps.mapIdx fun i p => ((⟨field, i, 0⟩, p.1), ⟨field, i, 1⟩, p.2)

def parts (field entry : Nat) (xs : List α) : List (Spot × α) := xs.mapIdx fun k x => (⟨field, entry, k⟩, x)

def argument (field entry : Nat) : Argument α → Argument (Spot × α)
  | .value attrs v => .value attrs (⟨field, entry, 0⟩, v)
  | .debugValue v => .debugValue (⟨field, entry, 0⟩, v)
  | .debugList vs => .debugList (parts field entry vs)
  | .debugNode node => .debugNode node

def arguments (field : Nat) (args : List (Argument α)) : List (Argument (Spot × α)) := args.mapIdx (argument field)

def bundles (field : Nat) (bs : List (Bundle α)) : List (Bundle (Spot × α)) :=
  bs.mapIdx fun i b => ⟨b.tag, parts field i b.inputs⟩

def clauses (field : Nat) (ps : List (Bool × α)) : List (Bool × Spot × α) := ps.mapIdx fun i p => (p.1, ⟨field, i, 0⟩, p.2)

/-- A call with the fields of its callee, arguments and bundles. -/
def call (callee args inputs : Nat) (c : Call α) : Call (Spot × α) :=
  { c with callee := lone callee c.callee, args := arguments args c.args, bundles := bundles inputs c.bundles }

end Spot

open Spot

/-- Puts its place beside what each slot holds. -/
def Operation.number {α : Type} : Operation α → Operation (Spot × α)
  | fneg flags x => fneg flags (lone 0 x)
  | binary op flags x y => binary op flags (lone 0 x) (lone 1 y)
  | cast op x t => cast op (lone 0 x) t
  | compare fl flags p x y => compare fl flags p (lone 0 x) (lone 1 y)
  | alloca flags t count a s => alloca flags t (count.map (lone 0)) a s
  | load acc t x => load acc t (lone 0 x)
  | store acc x d => store acc (lone 0 x) (lone 1 d)
  | fence s o => fence s o
  | cmpxchg flags a e n s o p => cmpxchg flags (lone 0 a) (lone 1 e) (lone 2 n) s o p
  | atomicrmw v op a x s o => atomicrmw v op (lone 0 a) (lone 1 x) s o
  | gep b t x is => gep b t (lone 0 x) (series 1 is)
  | extractElement x i => extractElement (lone 0 x) (lone 1 i)
  | insertElement x e i => insertElement (lone 0 x) (lone 1 e) (lone 2 i)
  | shuffleVector x y m => shuffleVector (lone 0 x) (lone 1 y) (lone 2 m)
  | extractValue x is => extractValue (lone 0 x) is
  | insertValue x e is => insertValue (lone 0 x) (lone 1 e) is
  | phi flags incoming => phi flags (pairs 0 incoming)
  | select flags c x y => select flags (lone 0 c) (lone 1 x) (lone 2 y)
  | freeze x => freeze (lone 0 x)
  | vaArg x t => vaArg (lone 0 x) t
  | call tail c => call tail (Spot.call 0 1 2 c)
  | landingPad cl clauses => landingPad cl (Spot.clauses 0 clauses)
  | catchPad s args => catchPad (lone 0 s) (arguments 1 args)
  | cleanupPad s args => cleanupPad (lone 0 s) (arguments 1 args)

def Terminator.number {α : Type} : Terminator α → Terminator (Spot × α)
  | ret value => ret (value.map (lone 0))
  | br t => br (lone 0 t)
  | condBr c y n => condBr (lone 0 c) (lone 1 y) (lone 2 n)
  | switch x d cases => switch (lone 0 x) (lone 1 d) (pairs 2 cases)
  | indirectBr a ts => indirectBr (lone 0 a) (series 1 ts)
  | invoke c n u => invoke (Spot.call 0 1 4 c) (lone 2 n) (lone 3 u)
  | callBr c n os => callBr (Spot.call 0 1 4 c) (lone 2 n) (series 3 os)
  | resume x => resume (lone 0 x)
  | catchSwitch s hs u => catchSwitch (lone 0 s) (series 1 hs) (u.map (lone 2))
  | catchRet p t => catchRet (lone 0 p) (lone 1 t)
  | cleanupRet p u => cleanupRet (lone 0 p) (u.map (lone 1))
  | unreachable => unreachable

variable {α β : Type}

theorem map_mapIdx {γ : Type} (g : β → γ) (f : Nat → α → β) (xs : List α) : (xs.mapIdx f).map g = xs.mapIdx fun i x => g (f i x) :=
  List.ext_getElem? fun i => by simp [Function.comp_def]

theorem mapIdx_const (f : α → β) (xs : List α) : (xs.mapIdx fun _ x => f x) = xs.map f :=
  List.ext_getElem? fun i => by simp

theorem nodup_flatten_mapIdx {κ : Type} {ks : Nat → α → List κ} (origin : κ → Nat) (own : ∀ i x, ∀ k ∈ ks i x, origin k = i)
    (each : ∀ i x, (ks i x).Nodup) (xs : List α) : (xs.mapIdx ks).flatten.Nodup := by
  refine List.nodup_flatten.mpr ⟨fun l listed => ?_, List.pairwise_iff_getElem.mpr fun i j hi hj less => ?_⟩
  · obtain ⟨i, h, rfl⟩ := List.mem_mapIdx.mp listed
    exact each i _
  · rw [List.getElem_mapIdx, List.getElem_mapIdx]
    intro k here there
    exact absurd ((own i _ k here).symm.trans (own j _ k there)) (Nat.ne_of_lt less)

@[simp] theorem Operand.code_value (x : α) : (Operand.code x).value = x := rfl

/-! ### Numbering only adds places -/

theorem Argument.erase_number (field entry : Nat) (a : Argument α) : (argument field entry a).mapOperands (fun _ x => x.2) = a := by
  cases a <;> simp [argument, parts, mapOperands, map_mapIdx, mapIdx_const]

theorem Call.erase_number (callee args inputs : Nat) (c : Call α) :
    (Spot.call callee args inputs c).mapOperands (fun _ x => x.2) = c := by
  simp [Spot.call, mapOperands, lone, arguments, Spot.bundles, parts, map_mapIdx, mapIdx_const, Argument.erase_number]

theorem Operation.erase_number (op : Operation α) : op.number.mapOperands (fun _ x => x.2) = op := by
  cases op <;> simp [number, mapOperands, lone, series, pairs, Spot.clauses, arguments, map_mapIdx, mapIdx_const, Call.erase_number,
    Argument.erase_number, Function.comp_def]

theorem Terminator.erase_number (t : Terminator α) : t.number.mapOperands (fun _ x => x.2) = t := by
  cases t <;> simp [number, mapOperands, lone, series, pairs, map_mapIdx, mapIdx_const, Call.erase_number, Function.comp_def]

/-! ### Places do not depend on what the slots hold -/

theorem Argument.number_mapOperands (f : Bool → Spot × α → β) (field entry : Nat) (a : Argument α) :
    argument field entry ((argument field entry a).mapOperands f) =
      (argument field entry a).mapOperands fun debug x => (x.1, f debug x) := by
  cases a <;> simp [argument, parts, mapOperands, map_mapIdx, List.mapIdx_mapIdx, Function.comp_def]

theorem Call.number_mapOperands (f : Bool → Spot × α → β) (callee args inputs : Nat) (c : Call α) :
    Spot.call callee args inputs ((Spot.call callee args inputs c).mapOperands f) =
      (Spot.call callee args inputs c).mapOperands fun debug x => (x.1, f debug x) := by
  simp [Spot.call, mapOperands, lone, arguments, Spot.bundles, parts, map_mapIdx, List.mapIdx_mapIdx, Argument.number_mapOperands,
    Function.comp_def]

theorem Operation.number_mapOperands (f : Bool → Spot × α → β) (op : Operation α) :
    (op.number.mapOperands f).number = op.number.mapOperands fun debug x => (x.1, f debug x) := by
  cases op <;> simp [number, mapOperands, lone, series, pairs, Spot.clauses, arguments, map_mapIdx, List.mapIdx_mapIdx,
    Call.number_mapOperands, Argument.number_mapOperands, Function.comp_def]

theorem Terminator.number_mapOperands (f : Bool → Spot × α → β) (t : Terminator α) :
    (t.number.mapOperands f).number = t.number.mapOperands fun debug x => (x.1, f debug x) := by
  cases t <;> simp [number, mapOperands, lone, series, pairs, map_mapIdx, List.mapIdx_mapIdx, Call.number_mapOperands,
    Function.comp_def]

/-! ### Each slot has a place of its own -/

structure Spot.InField (field : Nat) (ks : List Spot) : Prop where
  nodup : ks.Nodup
  own : ∀ k ∈ ks, k.field = field

structure Spot.FromField (field : Nat) (ks : List Spot) : Prop where
  nodup : ks.Nodup
  later : ∀ k ∈ ks, field ≤ k.field

def Spot.places (os : List (Operand (Spot × α))) : List Spot := os.map (·.value.1)

namespace Spot

theorem FromField.nil (field : Nat) : FromField field [] := ⟨List.nodup_nil, fun _ none => nomatch none⟩

theorem InField.last {field : Nat} {ks : List Spot} (whole : InField field ks) : FromField field ks :=
  ⟨whole.nodup, fun k listed => Nat.le_of_eq (whole.own k listed).symm⟩

theorem InField.followed {field : Nat} {ks ls : List Spot} (first : InField field ks) (rest : FromField (field + 1) ls) :
    FromField field (ks ++ ls) where
  nodup := by
    refine List.nodup_append.mpr ⟨first.nodup, rest.nodup, fun k here l later same => ?_⟩
    have before := first.own k here
    have behind := rest.later l later
    rw [← same, before] at behind
    exact absurd behind (Nat.not_succ_le_self field)
  later _ listed := by
    obtain here | there := List.mem_append.mp listed
    · exact Nat.le_of_eq (first.own _ here).symm
    · exact Nat.le_of_succ_le (rest.later _ there)

theorem places_append (os os' : List (Operand (Spot × α))) : places (os ++ os') = places os ++ places os' := List.map_append

theorem inField_lone (field : Nat) (x : α) : InField field (places [.code (lone field x)]) :=
  ⟨List.nodup_singleton _, fun _ listed => List.mem_singleton.mp listed ▸ rfl⟩

theorem inField_entries {γ δ : Type} {field : Nat} {entry : Nat → γ → δ} {operands : δ → List (Operand (Spot × α))}
    (own : ∀ i x, ∀ k ∈ places (operands (entry i x)), k.field = field ∧ k.entry = i)
    (each : ∀ i x, (places (operands (entry i x))).Nodup) (xs : List γ) :
    InField field (places ((xs.mapIdx entry).flatMap operands)) := by
  have split : places ((xs.mapIdx entry).flatMap operands) = (xs.mapIdx fun i x => places (operands (entry i x))).flatten := by
    rw [places, List.map_flatMap, List.flatMap_def, map_mapIdx]
    rfl
  rw [split]
  refine ⟨nodup_flatten_mapIdx Spot.entry (fun i x k listed => (own i x k listed).2) each xs, fun k listed => ?_⟩
  obtain ⟨ks, inside, present⟩ := List.mem_flatten.mp listed
  obtain ⟨i, h, rfl⟩ := List.mem_mapIdx.mp inside
  exact (own i _ k present).1

theorem inField_series (field : Nat) (xs : List α) : InField field (places ((series field xs).map .code)) := by
  rw [List.map_eq_flatMap]
  exact inField_entries (fun i x k listed => by simp_all [places]) (fun i x => by simp [places]) xs

theorem inField_pairs (field : Nat) (ps : List (α × α)) :
    InField field (places ((pairs field ps).flatMap fun p => [.code p.1, .code p.2])) :=
  inField_entries (fun i p k listed => by rcases List.mem_pair.mp listed with rfl | rfl <;> exact ⟨rfl, rfl⟩)
    (fun i p => by simp [places]) ps

theorem places_parts (debug : Bool) (field entry : Nat) (xs : List α) :
    places ((parts field entry xs).map fun x => ⟨x, debug⟩) = xs.mapIdx fun k _ => ⟨field, entry, k⟩ := by
  rw [places, parts, map_mapIdx, map_mapIdx]

theorem nodup_parts (field entry : Nat) (xs : List α) : (xs.mapIdx fun k _ => (⟨field, entry, k⟩ : Spot)).Nodup := by
  refine List.pairwise_iff_getElem.mpr fun i j hi hj less same => ?_
  rw [List.getElem_mapIdx, List.getElem_mapIdx] at same
  exact absurd (congrArg Spot.part same) (Nat.ne_of_lt less)

theorem own_of_mem_parts {field entry : Nat} {xs : List α} {k : Spot} (listed : k ∈ xs.mapIdx fun k _ => ⟨field, entry, k⟩) :
    k.field = field ∧ k.entry = entry := by
  obtain ⟨i, h, rfl⟩ := List.mem_mapIdx.mp listed
  exact ⟨rfl, rfl⟩

theorem inField_clauses (field : Nat) (clauses : List (Bool × α)) :
    InField field (places ((Spot.clauses field clauses).map fun p => .code p.2)) := by
  rw [List.map_eq_flatMap]
  exact inField_entries (fun i x k listed => by simp_all [places]) (fun i x => by simp [places]) clauses

theorem inField_arguments (field : Nat) (args : List (Argument α)) :
    InField field (places ((arguments field args).flatMap Argument.operands)) := by
  refine inField_entries (fun i a k listed => ?_) (fun i a => ?_) args
  · cases a with
    | debugList vs => exact own_of_mem_parts (places_parts true field i vs ▸ listed)
    | _ => simp_all [argument, Argument.operands, places]
  · cases a with
    | debugList vs => exact places_parts true field i vs ▸ nodup_parts field i vs
    | _ => simp [argument, Argument.operands, places]

theorem inField_bundles (field : Nat) (bs : List (Bundle α)) :
    InField field (places ((Spot.bundles field bs).flatMap fun b => b.inputs.map .code)) :=
  inField_entries (fun i b _ listed => own_of_mem_parts (places_parts false field i b.inputs ▸ listed))
    (fun i b => places_parts false field i b.inputs ▸ nodup_parts field i b.inputs) bs

end Spot

theorem Operation.nodup_places (op : Operation α) : (places op.number.operands).Nodup := by
  cases op with
  | alloca flags elem count align space => cases count <;> simp [number, operands, places]
  | gep inbounds elem source indices => exact ((inField_lone 0 source).followed (inField_series 1 indices).last).nodup
  | phi flags incoming => exact (inField_pairs 0 incoming).nodup
  | call tail c =>
    have rest : FromField 1 (places ((arguments 1 c.args).flatMap Argument.operands ++
        (Spot.bundles 2 c.bundles).flatMap fun b => b.inputs.map .code)) := by
      rw [places_append]
      exact (inField_arguments 1 c.args).followed (inField_bundles 2 c.bundles).last
    exact ((inField_lone 0 c.callee).followed rest).nodup
  | landingPad cleanup clauses => exact (inField_clauses 0 clauses).nodup
  | catchPad scope args | cleanupPad scope args =>
    exact ((inField_lone 0 scope).followed (inField_arguments 1 args).last).nodup
  | _ => simp [number, operands, places, lone]

theorem Terminator.nodup_places (t : Terminator α) : (places t.number.operands).Nodup := by
  cases t with
  | ret value => cases value <;> simp [number, operands, places]
  | switch x fallback cases =>
    exact ((inField_lone 0 x).followed ((inField_lone 1 fallback).followed (inField_pairs 2 cases).last)).nodup
  | indirectBr address targets => exact ((inField_lone 0 address).followed (inField_series 1 targets).last).nodup
  | invoke c normal unwind =>
    have rest : FromField 1 (places ((arguments 1 c.args).flatMap Argument.operands ++
        .code (lone 2 normal) :: .code (lone 3 unwind) :: (Spot.bundles 4 c.bundles).flatMap fun b => b.inputs.map .code)) := by
      rw [places_append]
      exact (inField_arguments 1 c.args).followed
        ((inField_lone 2 normal).followed ((inField_lone 3 unwind).followed (inField_bundles 4 c.bundles).last))
    exact ((inField_lone 0 c.callee).followed rest).nodup
  | callBr c normal others =>
    have last : FromField 3 (places ((series 3 others).map .code ++
        (Spot.bundles 4 c.bundles).flatMap fun b => b.inputs.map .code)) := by
      rw [places_append]
      exact (inField_series 3 others).followed (inField_bundles 4 c.bundles).last
    have rest : FromField 1 (places ((arguments 1 c.args).flatMap Argument.operands ++
        .code (lone 2 normal) :: ((series 3 others).map .code ++
          (Spot.bundles 4 c.bundles).flatMap fun b => b.inputs.map .code))) := by
      rw [places_append]
      exact (inField_arguments 1 c.args).followed ((inField_lone 2 normal).followed last)
    exact ((inField_lone 0 c.callee).followed rest).nodup
  | catchSwitch scope handlers unwind =>
    have rest : FromField 1 (places ((series 1 handlers).map .code ++ (unwind.map (lone 2)).toList.map .code)) := by
      rw [places_append]
      cases unwind with
      | none => exact (inField_series 1 handlers).followed (.nil 2)
      | some v => exact (inField_series 1 handlers).followed (inField_lone 2 v).last
    exact ((inField_lone 0 scope).followed rest).nodup
  | cleanupRet pad unwind => cases unwind <;> simp [number, operands, places, lone]
  | _ => simp [number, operands, places, lone]

/-- What holds operands, like instructions and terminators. Its slots are listed, changed and numbered. -/
class Slotted (F : Type → Type) where
  operands {α : Type} (x : F α) : List (Operand α)
  mapOperands {α β : Type} (f : Bool → α → β) (x : F α) : F β
  number {α : Type} (x : F α) : F (Spot × α)
  operands_mapOperands {α β : Type} (f : Bool → α → β) (x : F α) : operands (mapOperands f x) = (operands x).map (Operand.map f)
  mapOperands_mapOperands {α β γ : Type} (f : Bool → α → β) (g : Bool → β → γ) (x : F α) :
    mapOperands g (mapOperands f x) = mapOperands (fun debug v => g debug (f debug v)) x
  mapOperands_congr {α β : Type} {f g : Bool → α → β} (x : F α)
    (agree : ∀ o ∈ operands x, f o.debug o.value = g o.debug o.value) : mapOperands f x = mapOperands g x
  erase_number {α : Type} (x : F α) : mapOperands (fun _ y => y.2) (number x) = x
  number_mapOperands {α β : Type} (f : Bool → Spot × α → β) (x : F α) :
    number (mapOperands f (number x)) = mapOperands (fun debug y => (y.1, f debug y)) (number x)
  nodup_places {α : Type} (x : F α) : (places (operands (number x))).Nodup

/- Each law needs its own case analysis, over instructions and over terminators. What follows from the laws is shown once for
both. -/
instance : Slotted Operation where
  operands := Operation.operands
  mapOperands := Operation.mapOperands
  number := Operation.number
  operands_mapOperands := Operation.operands_mapOperands
  mapOperands_mapOperands := Operation.mapOperands_mapOperands
  mapOperands_congr := Operation.mapOperands_congr
  erase_number := Operation.erase_number
  number_mapOperands := Operation.number_mapOperands
  nodup_places := Operation.nodup_places

instance : Slotted Terminator where
  operands := Terminator.operands
  mapOperands := Terminator.mapOperands
  number := Terminator.number
  operands_mapOperands := Terminator.operands_mapOperands
  mapOperands_mapOperands := Terminator.mapOperands_mapOperands
  mapOperands_congr := Terminator.mapOperands_congr
  erase_number := Terminator.erase_number
  number_mapOperands := Terminator.number_mapOperands
  nodup_places := Terminator.nodup_places

namespace Slotted

variable {γ : Type} {F : Type → Type} [Slotted F]

def slots (x : F α) : List (Spot × Operand α) := (operands (number x)).map fun o => (o.value.1, ⟨o.value.2, o.debug⟩)

def slot? (x : F α) (s : Spot) : Option (Operand α) := (slots x).lookup s

def mapAt (f : Spot → α → β) (x : F α) : F β := mapOperands (fun _ y => f y.1 y.2) (number x)

theorem slots_operands (x : F α) : (slots x).map (·.2) = operands x := by
  conv_rhs => rw [← erase_number x, operands_mapOperands]
  rw [slots, List.map_map]
  rfl

theorem nodup_slots (x : F α) : ((slots x).map (·.1)).Nodup := by
  rw [slots, List.map_map]
  exact nodup_places x

theorem slots_mapAt (f : Spot → α → β) (x : F α) :
    slots (mapAt f x) = (slots x).map fun e => (e.1, ⟨f e.1 e.2.value, e.2.debug⟩) := by
  rw [slots, slots, mapAt, number_mapOperands, operands_mapOperands, List.map_map, List.map_map]
  rfl

theorem mapAt_congr {f g : Spot → α → β} (x : F α) (agree : ∀ e ∈ slots x, f e.1 e.2.value = g e.1 e.2.value) :
    mapAt f x = mapAt g x :=
  mapOperands_congr (number x) fun o present => agree _ (List.mem_map.mpr ⟨o, present, rfl⟩)

theorem mapAt_mapAt (f : Spot → α → β) (g : Spot → β → γ) (x : F α) : mapAt g (mapAt f x) = mapAt (fun s v => g s (f s v)) x := by
  rw [mapAt, mapAt, mapAt, number_mapOperands, mapOperands_mapOperands]

theorem mapAt_const (f : α → β) (x : F α) : mapAt (fun _ => f) x = mapOperands (fun _ => f) x := by
  conv_rhs => rw [← erase_number x, mapOperands_mapOperands]
  rfl

theorem mapAt_same (x : F α) : mapAt (fun _ v => v) x = x := erase_number x

theorem slot?_eq_some_iff {x : F α} {s : Spot} {o : Operand α} : slot? x s = some o ↔ (s, o) ∈ slots x := by
  rw [slot?, List.lookup_eq_some_iff]
  constructor
  · rintro ⟨front, back, split, -⟩
    exact split ▸ List.mem_append_right front List.mem_cons_self
  · intro listed
    obtain ⟨front, back, split⟩ := List.append_of_mem listed
    refine ⟨front, back, split, fun e earlier => bne_iff_ne.mpr fun same => ?_⟩
    have apart := nodup_slots x
    rw [split, List.map_append, List.map_cons] at apart
    exact List.disjoint_of_nodup_append apart (List.mem_map.mpr ⟨e, earlier, same.symm⟩) List.mem_cons_self

theorem slot?_mapAt (f : Spot → α → β) (x : F α) (s : Spot) :
    slot? (mapAt f x) s = (slot? x s).map fun o => ⟨f s o.value, o.debug⟩ := by
  ext o
  simp only [slot?_eq_some_iff, Option.map_eq_some_iff, slots_mapAt, List.mem_map]
  constructor
  · rintro ⟨e, listed, same⟩
    cases same
    exact ⟨e.2, listed, rfl⟩
  · rintro ⟨p, listed, rfl⟩
    exact ⟨(s, p), listed, rfl⟩

/-- What holds operands is made up of what it is without them and of what its slots hold. -/
theorem eq_mapAt_of_shape [Inhabited β] {x : F α} {y : F β} (shape : mapOperands (fun _ _ => ()) x = mapOperands (fun _ _ => ()) y) :
    y = mapAt (fun s _ => ((slot? y s).map Operand.value).getD default) x := by
  calc y = mapAt (fun _ v => v) y := (mapAt_same y).symm
    _ = mapAt (fun s _ => ((slot? y s).map Operand.value).getD default) y := mapAt_congr y fun e listed => by
      rw [slot?_eq_some_iff.mpr listed]
      rfl
    _ = mapAt (fun s _ => ((slot? y s).map Operand.value).getD default) (mapOperands (fun _ _ => ()) y) := by
      rw [← mapAt_const, mapAt_mapAt]
    _ = mapAt (fun s _ => ((slot? y s).map Operand.value).getD default) x := by
      rw [← shape, ← mapAt_const, mapAt_mapAt]

end Slotted

end CallFusion.Ir
