import CallFusion.Ir.Uses
import CallFusion.Proofs.Ir.Copies
import CallFusion.Proofs.Ir.Slots

/-!
Replacing a value. The slots that hold it are collected first and then written one by one. What comes out is the function with
all of them replaced at once: a write never makes or hides a slot that is still to be written.
-/

namespace CallFusion.Ir

/-- An operand slot of a function, by its place. -/
structure Slot where
  block : Nat
  index : Option Nat
  spot : Spot
  deriving DecidableEq, Repr

namespace Block

def placed (b : Block) (n : Nat) : List (Slot × Operand Value) :=
  (b.insts.mapIdx fun k i => (Slotted.slots i.op).map fun e => (⟨n, some k, e.1⟩, e.2)).flatten ++
    (Slotted.slots b.term.op).map fun e => (⟨n, none, e.1⟩, e.2)

def slot? (b : Block) : Option Nat → Spot → Option (Operand Value)
  | some k, s => (b.insts[k]?).bind fun i => Slotted.slot? i.op s
  | none, s => Slotted.slot? b.term.op s

def mapAt (g : Option Nat → Spot → Value → Value) (b : Block) : Block :=
  { b with
    insts := b.insts.mapIdx fun k i => { i with op := Slotted.mapAt (g (some k)) i.op }
    term := { b.term with op := Slotted.mapAt (g none) b.term.op } }

end Block

namespace Function

def placed (f : Function) : List (Slot × Operand Value) := (f.blocks.mapIdx fun i b => b.placed i).flatten

def slot? (f : Function) (p : Slot) : Option (Operand Value) := (f.blocks[p.block]?).bind fun b => b.slot? p.index p.spot

def mapAt (g : Slot → Value → Value) (f : Function) : Function :=
  { f with blocks := f.blocks.mapIdx fun i b => b.mapAt fun k s => g ⟨i, k, s⟩ }

def put (v : Value) (f : Function) (p : Slot) : Function := f.mapAt fun q x => if q = p then v else x

def holders (f : Function) (v : Value) : List Slot := (f.placed.filter fun e => e.2.value.same v).map (·.1)

end Function

/-! ### Slots and their places -/

theorem mem_map_slots {F : Type → Type} [Slotted F] {x : F Value} {n : Nat} {index : Option Nat} {p : Slot} {o : Operand Value} :
    (p, o) ∈ (Slotted.slots x).map (fun e => ((⟨n, index, e.1⟩ : Slot), e.2)) ↔
      p.block = n ∧ p.index = index ∧ Slotted.slot? x p.spot = some o := by
  rw [List.mem_map, Slotted.slot?_eq_some_iff]
  constructor
  · rintro ⟨e, listed, same⟩
    cases same
    exact ⟨rfl, rfl, listed⟩
  · rintro ⟨rfl, rfl, listed⟩
    exact ⟨(p.spot, o), listed, rfl⟩

theorem nodup_map_slots {F : Type → Type} [Slotted F] (x : F Value) (n : Nat) (index : Option Nat) :
    (((Slotted.slots x).map fun e => ((⟨n, index, e.1⟩ : Slot), e.2)).map (·.1)).Nodup := by
  have apart : Function.Injective fun s => (⟨n, index, s⟩ : Slot) := fun s t same => congrArg Slot.spot same
  have keys := (Slotted.nodup_slots x).map apart
  rw [List.map_map] at keys ⊢
  exact keys

namespace Block

variable {b : Block} {n : Nat} {p : Slot} {o : Operand Value}

theorem mem_placed : (p, o) ∈ b.placed n ↔ p.block = n ∧ b.slot? p.index p.spot = some o := by
  rw [placed, List.mem_append, mem_map_slots, List.mem_flatten]
  constructor
  · rintro (⟨_, inside, listed⟩ | ⟨block, index, held⟩)
    · obtain ⟨k, h, rfl⟩ := List.mem_mapIdx.mp inside
      obtain ⟨block, index, held⟩ := mem_map_slots.mp listed
      rw [index, slot?, List.getElem?_eq_getElem h]
      exact ⟨block, held⟩
    · rw [index]
      exact ⟨block, held⟩
  · rintro ⟨block, held⟩
    cases index : p.index with
    | none =>
      rw [index] at held
      exact .inr ⟨block, rfl, held⟩
    | some k =>
      rw [index] at held
      obtain ⟨i, found, held⟩ := Option.bind_eq_some_iff.mp held
      obtain ⟨h, rfl⟩ := List.getElem?_eq_some_iff.mp found
      exact .inl ⟨_, List.mem_mapIdx.mpr ⟨k, h, rfl⟩, mem_map_slots.mpr ⟨block, index, held⟩⟩

theorem nodup_placed (b : Block) (n : Nat) : ((b.placed n).map (·.1)).Nodup := by
  have position : ∀ {F : Type → Type} [Slotted F] {x : F Value} {index : Option Nat} {p : Slot},
      p ∈ ((Slotted.slots x).map fun e => ((⟨n, index, e.1⟩ : Slot), e.2)).map (·.1) → p.index = index := by
    intro F _ x index p listed
    obtain ⟨⟨p, o⟩, inside, rfl⟩ := List.mem_map.mp listed
    exact (mem_map_slots.mp inside).2.1
  rw [placed, List.map_append, List.map_flatten, map_mapIdx]
  refine List.nodup_append.mpr ⟨?_, nodup_map_slots b.term.op n none, fun p first q last same => ?_⟩
  · exact nodup_flatten_mapIdx (fun p => p.index.getD 0) (fun k i p listed => by rw [position listed, Option.getD_some])
      (fun k i => nodup_map_slots i.op n (some k)) b.insts
  · obtain ⟨_, inside, listed⟩ := List.mem_flatten.mp first
    obtain ⟨k, h, rfl⟩ := List.mem_mapIdx.mp inside
    exact absurd ((position listed).symm.trans (same ▸ position last)) (Option.some_ne_none k)

end Block

namespace Function

variable {f : Function} {p : Slot} {o : Operand Value}

theorem mem_placed : (p, o) ∈ f.placed ↔ f.slot? p = some o := by
  simp only [placed, List.mem_flatten, List.mem_mapIdx, slot?, Option.bind_eq_some_iff]
  constructor
  · rintro ⟨_, ⟨i, h, rfl⟩, listed⟩
    obtain ⟨rfl, held⟩ := Block.mem_placed.mp listed
    exact ⟨f.blocks[p.block], List.getElem?_eq_getElem h, held⟩
  · rintro ⟨b, found, held⟩
    obtain ⟨h, rfl⟩ := List.getElem?_eq_some_iff.mp found
    exact ⟨_, ⟨p.block, h, rfl⟩, Block.mem_placed.mpr ⟨rfl, held⟩⟩

theorem nodup_placed (f : Function) : (f.placed.map (·.1)).Nodup := by
  rw [placed, List.map_flatten, map_mapIdx]
  refine nodup_flatten_mapIdx Slot.block (fun i b p listed => ?_) (fun i b => b.nodup_placed i) f.blocks
  obtain ⟨⟨q, o⟩, present, rfl⟩ := List.mem_map.mp listed
  exact (Block.mem_placed.mp present).1

theorem mem_holders {v : Value} : p ∈ f.holders v ↔ ∃ o, f.slot? p = some o ∧ o.value.same v = true := by
  simp only [holders, List.mem_map, List.mem_filter]
  constructor
  · rintro ⟨⟨q, o⟩, ⟨listed, held⟩, rfl⟩
    exact ⟨o, mem_placed.mp listed, held⟩
  · rintro ⟨o, found, held⟩
    exact ⟨(p, o), ⟨mem_placed.mpr found, held⟩, rfl⟩

theorem nodup_holders (f : Function) (v : Value) : (f.holders v).Nodup :=
  (f.nodup_placed).sublist (List.filter_sublist.map _)

end Function

/-! ### Changing slots -/

namespace Block

theorem slot?_mapAt (g : Option Nat → Spot → Value → Value) (b : Block) (index : Option Nat) (s : Spot) :
    (b.mapAt g).slot? index s = (b.slot? index s).map fun o => ⟨g index s o.value, o.debug⟩ := by
  cases index with
  | none => exact Slotted.slot?_mapAt (g none) b.term.op s
  | some k =>
    rw [slot?, slot?, mapAt, List.getElem?_mapIdx]
    cases b.insts[k]? with
    | none => rfl
    | some i => exact Slotted.slot?_mapAt (g (some k)) i.op s

theorem mapAt_congr {g h : Option Nat → Spot → Value → Value} {b : Block}
    (agree : ∀ k s o, b.slot? k s = some o → g k s o.value = h k s o.value) : b.mapAt g = b.mapAt h := by
  have insts : (b.insts.mapIdx fun k i => { i with op := Slotted.mapAt (g (some k)) i.op }) =
      b.insts.mapIdx fun k i => { i with op := Slotted.mapAt (h (some k)) i.op } := by
    refine List.mapIdx_eq_mapIdx_iff.mpr fun k within => ?_
    have op := Slotted.mapAt_congr (f := g (some k)) (g := h (some k)) b.insts[k].op fun e listed =>
      agree (some k) e.1 e.2 (by
        rw [slot?, List.getElem?_eq_getElem within]
        exact Slotted.slot?_eq_some_iff.mpr listed)
    rw [op]
  have term := Slotted.mapAt_congr (f := g none) (g := h none) b.term.op fun e listed =>
    agree none e.1 e.2 (Slotted.slot?_eq_some_iff.mpr listed)
  rw [mapAt, mapAt, insts, term]

end Block

namespace Function

variable {f g : Function} {p : Slot} {o : Operand Value}

theorem slot?_mapAt (h : Slot → Value → Value) (f : Function) (p : Slot) :
    (f.mapAt h).slot? p = (f.slot? p).map fun o => ⟨h p o.value, o.debug⟩ := by
  rw [slot?, slot?, mapAt, List.getElem?_mapIdx]
  cases f.blocks[p.block]? with
  | none => rfl
  | some b => exact b.slot?_mapAt _ p.index p.spot

theorem mapAt_congr {h h' : Slot → Value → Value} (agree : ∀ p o, f.slot? p = some o → h p o.value = h' p o.value) :
    f.mapAt h = f.mapAt h' := by
  have blocks : (f.blocks.mapIdx fun i b => b.mapAt fun k s => h ⟨i, k, s⟩) =
      f.blocks.mapIdx fun i b => b.mapAt fun k s => h' ⟨i, k, s⟩ := by
    refine List.mapIdx_eq_mapIdx_iff.mpr fun i within => Block.mapAt_congr fun k s o held => ?_
    refine agree ⟨i, k, s⟩ o ?_
    rw [slot?, List.getElem?_eq_getElem within]
    exact held
  rw [mapAt, mapAt, blocks]

theorem mapAt_mapAt (h h' : Slot → Value → Value) (f : Function) :
    (f.mapAt h).mapAt h' = f.mapAt fun p x => h' p (h p x) := by
  simp [mapAt, Block.mapAt, List.mapIdx_mapIdx, Slotted.mapAt_mapAt, Function.comp_def]

theorem mapAt_const (h : Value → Value) (f : Function) : (f.mapAt fun _ => h) = f.mapOperands fun _ => h := by
  simp only [mapAt, Block.mapAt, Slotted.mapAt_const, mapIdx_const]
  rfl

theorem foldl_put (v : Value) (f : Function) (ps : List Slot) :
    ps.foldl (put v) f = f.mapAt fun q x => if q ∈ ps then v else x := by
  -- The function is not fixed: each write changes it, and the places of its slots stay.
  induction ps generalizing f with
  | nil =>
    have same := f.mapAt_const fun x => x
    rw [mapOperands_eq_self f fun _ _ => rfl] at same
    simpa using same.symm
  | cons p ps ih =>
    rw [List.foldl_cons, ih, put, mapAt_mapAt]
    refine mapAt_congr fun q o _ => ?_
    by_cases here : q = p <;> by_cases later : q ∈ ps <;> simp [here, later]

/-- Writing the collected slots one by one replaces the value everywhere at once. -/
theorem foldl_put_holders (f : Function) (old new : Value) : (f.holders old).foldl (put new) f = f.redirect old new := by
  rw [foldl_put, redirect, ← mapAt_const fun x => if x.same old then new else x]
  refine mapAt_congr fun p o found => ?_
  have held : p ∈ f.holders old ↔ o.value.same old = true := by simp [mem_holders, found]
  simp only [held]

end Function

/-! ### What a change leaves as it is -/

/-- Instructions that differ at most in what their slots hold. -/
structure Instruction.Alike (i j : Instruction) : Prop where
  id : j.id = i.id
  ident : j.ident = i.ident
  type : j.type = i.type
  attachments : j.attachments = i.attachments
  shape : j.op.shape = i.op.shape

structure Terminal.Alike (s t : Terminal) : Prop where
  id : t.id = s.id
  ident : t.ident = s.ident
  type : t.type = s.type
  attachments : t.attachments = s.attachments
  shape : t.op.shape = s.op.shape

structure Block.Alike (b c : Block) : Prop where
  id : c.id = b.id
  ident : c.ident = b.ident
  insts : List.Forall₂ Instruction.Alike b.insts c.insts
  term : b.term.Alike c.term

/-- Functions that differ at most in what the slots of their blocks hold. -/
structure Function.Alike (f g : Function) : Prop where
  rest : g = { f with blocks := g.blocks }
  blocks : List.Forall₂ Block.Alike f.blocks g.blocks

theorem forall₂_mapIdx {α β : Type} {R : α → β → Prop} {h : Nat → α → β} (each : ∀ i x, R x (h i x)) (xs : List α) :
    List.Forall₂ R xs (xs.mapIdx h) := by
  induction xs generalizing h with
  | nil => exact .nil
  | cons x xs ih =>
    rw [List.mapIdx_cons]
    exact .cons (each 0 x) (ih fun i => each (i + 1))

theorem Slotted.shape_mapAt {F : Type → Type} [Slotted F] (h : Spot → Value → Value) (x : F Value) :
    mapOperands (fun _ _ => ()) (mapAt h x) = mapOperands (fun _ _ => ()) x := by
  rw [← mapAt_const, ← mapAt_const, mapAt_mapAt]

theorem Block.alike_mapAt (h : Option Nat → Spot → Value → Value) (b : Block) : b.Alike (b.mapAt h) where
  id := rfl
  ident := rfl
  insts := forall₂_mapIdx (fun k i => ⟨rfl, rfl, rfl, rfl, Slotted.shape_mapAt (h (some k)) i.op⟩) b.insts
  term := ⟨rfl, rfl, rfl, rfl, Slotted.shape_mapAt (h none) b.term.op⟩

theorem Function.alike_mapAt (h : Slot → Value → Value) (f : Function) : f.Alike (f.mapAt h) where
  rest := rfl
  blocks := forall₂_mapIdx (fun i b => b.alike_mapAt fun k s => h ⟨i, k, s⟩) f.blocks

theorem eq_mapIdx_of_forall₂ {α β : Type} {R : α → β → Prop} {h : Nat → α → β} {xs : List α} {ys : List β}
    (both : List.Forall₂ R xs ys) (each : ∀ k x y, ys[k]? = some y → R x y → y = h k x) : ys = xs.mapIdx h := by
  induction both generalizing h with
  | nil => rfl
  | cons first rest ih =>
    rw [List.mapIdx_cons, ← each 0 _ _ rfl first, ← ih fun k x y found related => each (k + 1) x y found related]

theorem Instruction.Alike.eq_mapAt {i j : Instruction} (alike : i.Alike j) :
    j = { i with op := Slotted.mapAt (fun s _ => ((Slotted.slot? j.op s).map Operand.value).getD default) i.op } := by
  rw [← Slotted.eq_mapAt_of_shape alike.shape.symm, ← alike.id, ← alike.ident, ← alike.type, ← alike.attachments]

theorem Terminal.Alike.eq_mapAt {s t : Terminal} (alike : s.Alike t) :
    t = { s with op := Slotted.mapAt (fun s _ => ((Slotted.slot? t.op s).map Operand.value).getD default) s.op } := by
  rw [← Slotted.eq_mapAt_of_shape alike.shape.symm, ← alike.id, ← alike.ident, ← alike.type, ← alike.attachments]

theorem Block.Alike.eq_mapAt {b c : Block} (alike : b.Alike c) :
    c = b.mapAt fun k s _ => ((c.slot? k s).map Operand.value).getD default := by
  have insts : c.insts = b.insts.mapIdx fun k i => { i with
      op := Slotted.mapAt (fun s _ => ((c.slot? (some k) s).map Operand.value).getD default) i.op } := by
    refine eq_mapIdx_of_forall₂ alike.insts fun k i j found related => ?_
    simp only [slot?, found, Option.bind_some]
    exact related.eq_mapAt
  rw [mapAt, ← insts]
  simp only [slot?]
  rw [← alike.term.eq_mapAt, ← alike.id, ← alike.ident]

theorem Function.Alike.eq_mapAt {f g : Function} (alike : f.Alike g) :
    g = f.mapAt fun p _ => ((g.slot? p).map Operand.value).getD default := by
  have blocks : g.blocks = f.blocks.mapIdx fun i b => b.mapAt fun k s _ =>
      ((g.slot? ⟨i, k, s⟩).map Operand.value).getD default := by
    refine eq_mapIdx_of_forall₂ alike.blocks fun i b c found related => ?_
    simp only [slot?, found, Option.bind_some]
    exact related.eq_mapAt
  rw [mapAt, ← blocks]
  exact alike.rest

/-! ### Replacing all uses -/

namespace Function

/-- What a use says about the slot that it is for. -/
structure Reports (f : Function) (p : Slot) (u : Use) : Prop where
  block : (f.blocks[p.block]?).map Block.id = some u.block
  index : u.index = p.index
  debug : (f.slot? p).map Operand.debug = some u.debug

/-- A function in which `new` is where `old` was, and that is the same otherwise. -/
structure Substituted (f : Function) (old new : Value) (g : Function) : Prop where
  written : g = (f.holders old).foldl (put new) f
  slots : ∀ p, g.slot? p = (f.slot? p).map fun o => if o.value.same old then ⟨new, o.debug⟩ else o
  gone : g.uses old = []
  alike : f.Alike g
  only : ∀ h, f.Alike h → (∀ p, h.slot? p = g.slot? p) → h = g

def report (f : Function) (e : Slot × Operand Value) : Use × Value :=
  (⟨((f.blocks[e.1.block]?).map Block.id).getD default, e.1.index, e.2.debug⟩, e.2.value)

end Function

theorem Block.placed_report (b : Block) (n : Nat) :
    ((b.placed n).map fun e => ((⟨b.id, e.1.index, e.2.debug⟩ : Use), e.2.value)) =
      (b.insts.zipIdx.flatMap fun (inst, i) => inst.op.operands.map fun o => (⟨b.id, some i, o.debug⟩, o.value)) ++
        b.term.op.operands.map fun o => (⟨b.id, none, o.debug⟩, o.value) := by
  have inst : ∀ i : Instruction, i.op.operands = (Slotted.slots i.op).map (·.2) := fun i => (Slotted.slots_operands i.op).symm
  have term : b.term.op.operands = (Slotted.slots b.term.op).map (·.2) := (Slotted.slots_operands b.term.op).symm
  simp only [placed, List.map_append, List.map_flatten, List.map_map, List.flatMap_def, inst, term,
    List.mapIdx_eq_zipIdx_map, Function.comp_def]

namespace Function

theorem placed_report (f : Function) : f.placed.map f.report = f.slots := by
  rw [placed, List.map_flatten, map_mapIdx, slots, List.flatMap_def, ← mapIdx_const]
  congr 1
  refine List.mapIdx_eq_mapIdx_iff.mpr fun i within => ?_
  rw [← Block.placed_report f.blocks[i] i]
  refine List.map_congr_left fun e listed => ?_
  have here := (Block.mem_placed.mp listed).1
  simp [report, here, List.getElem?_eq_getElem within]

theorem uses_report (f : Function) (v : Value) : List.Forall₂ f.Reports (f.holders v) (f.uses v) := by
  rw [holders, uses, ← placed_report, List.filter_map, List.map_map, List.forall₂_map_left_iff, List.forall₂_map_right_iff]
  refine List.forall₂_same.mpr fun e listed => ?_
  have found := mem_placed.mp (List.mem_filter.mp listed).1
  obtain ⟨b, known, _⟩ := Option.bind_eq_some_iff.mp found
  exact ⟨by simp [report, known], rfl, by simp [report, found]⟩

theorem uses_eq_nil_iff {f : Function} {v : Value} : f.uses v = [] ↔ f.holders v = [] := by
  rw [← List.length_eq_zero_iff, ← List.length_eq_zero_iff, (f.uses_report v).length_eq]

theorem substituted_redirect (f : Function) {old new : Value} (apart : new.same old = false) :
    f.Substituted old new (f.redirect old new) := by
  have written := f.foldl_put_holders old new
  have changed : f.redirect old new = f.mapAt fun _ x => if x.same old then new else x := (f.mapAt_const _).symm
  have slots : ∀ p, (f.redirect old new).slot? p =
      (f.slot? p).map fun o => if o.value.same old then ⟨new, o.debug⟩ else o := by
    intro p
    rw [changed, slot?_mapAt]
    congr 1
    funext o
    split <;> rfl
  refine ⟨written.symm, slots, ?_, changed ▸ f.alike_mapAt _, fun h alike held => ?_⟩
  · refine uses_eq_nil_iff.mpr (List.eq_nil_iff_forall_not_mem.mpr fun p listed => ?_)
    obtain ⟨o, found, same⟩ := mem_holders.mp listed
    rw [slots, Option.map_eq_some_iff] at found
    obtain ⟨before, -, rfl⟩ := found
    split at same
    · rw [apart] at same
      cases same
    · contradiction
  · have redirected : f.Alike (f.redirect old new) := changed ▸ f.alike_mapAt _
    rw [alike.eq_mapAt, redirected.eq_mapAt]
    simp only [held]

/-- Replacing a value is a substitution. The uses are the slots that hold the value, each of them once. Without uses, or where
the types differ, nothing is changed; otherwise the slots that were collected hold the new value, and nothing else differs. -/
theorem replaceAllUses_substitutes (f : Function) (m : Module) {old new : Value} (apart : new.same old = false) :
    (∀ p, p ∈ f.holders old ↔ ∃ o, f.slot? p = some o ∧ o.value.same old = true) ∧ (f.holders old).Nodup ∧
      List.Forall₂ f.Reports (f.holders old) (f.uses old) ∧
      (f.uses old = [] → f.replaceAllUses m old new = .ok (f, 0)) ∧
      (f.uses old ≠ [] → old.type.same new.type = false → f.replaceAllUses m old new = .error (.structural ("cannot replace " ++
        f.identText m old ++ " of type " ++ old.type.text ++ " with value of type " ++ new.type.text))) ∧
      (f.uses old ≠ [] → old.type.same new.type = true →
        ∃ g, f.replaceAllUses m old new = .ok (g, (f.uses old).length) ∧ f.Substituted old new g) := by
  refine ⟨fun p => mem_holders, f.nodup_holders old, f.uses_report old, fun unused => ?_, fun used other => ?_,
    fun used agree => ⟨f.redirect old new, ?_, f.substituted_redirect apart⟩⟩
  · simp [replaceAllUses, useCount, unused]
  · have some : (f.uses old).length ≠ 0 := fun none => used (List.length_eq_zero_iff.mp none)
    simp only [replaceAllUses, useCount, some, other, if_false, Bool.false_eq_true]
  · have some : (f.uses old).length ≠ 0 := fun none => used (List.length_eq_zero_iff.mp none)
    simp only [replaceAllUses, useCount, some, agree, if_false, if_true]

end Function

namespace Everywhere

def x : Value := .local 1 (.int 32)

def y : Value := .local 2 (.int 32)

def entry : Value := .block 0

/-- A call that takes a value as its argument, in its bundle and twice in what it tells a debugger. -/
def callOf (v : Value) : Call Value where
  callee := .const 4 (.symbol ⟨9⟩ (.pointer (.func .void [] true) 0))
  args := [.value ["noundef"] v, .debugValue v, .debugList [y, v]]
  bundles := [⟨[100], [v]⟩]

/-- A function whose phi holds itself. -/
def holding (v : Value) : Function where
  id := ⟨8⟩
  symbol := .named "f"
  result := .void
  params := [⟨2, .named "y", .int 32, []⟩]
  blocks := [⟨0, .named "entry", [⟨1, .named "x", .int 32, .phi [] [(v, entry), (y, entry)], []⟩,
      ⟨3, .number 0, .void, .call "" (callOf v), []⟩],
    ⟨4, .number 0, .void, .switch v entry [(v, entry)], []⟩⟩]

theorem held_everywhere : y.same x = false ∧ ((holding x).holders x).length = 7 ∧
    ∃ g, (holding x).replaceAllUses {} x y = .ok (g, 7) ∧ (holding x).Substituted x y g ∧ g = holding y := by
  have apart : y.same x = false := by decide
  have seven : ((holding x).uses x).length = 7 := by decide
  obtain ⟨-, -, reported, -, -, replaced⟩ := (holding x).replaceAllUses_substitutes {} apart
  obtain ⟨g, done, substituted⟩ := replaced (fun none => by rw [none] at seven; cases seven) (by decide)
  rw [seven] at done
  have written : g = (holding x).redirect x y := substituted.written.trans ((holding x).foldl_put_holders x y)
  exact ⟨apart, reported.length_eq.trans seven, g, done, substituted, written⟩

end Everywhere

end CallFusion.Ir
