import CallFusion.Ir.References

/-!
Mentions of functions and globals. A constant mentions a symbol when one of its parts, at whatever
depth, names it; a module mentions it in operands, personalities, initializers of globals and metadata
tuples, and a function that is removed is mentioned nowhere else.
-/

namespace CallFusion.Ir

namespace Constant

def children : Constant → List Constant
  | array _ elems => elems
  | vector _ elems => elems
  | struct _ _ fields => fields
  | cast _ source _ => [source]
  | gep _ _ source indices _ => source :: indices
  | inRange index => [index]
  | select cond x y => [cond, x, y]
  | fneg x => [x]
  | binary _ _ x y => [x, y]
  | compare _ _ x y _ => [x, y]
  | extractElement x index _ => [x, index]
  | insertElement x elem index => [x, elem, index]
  | shuffleVector x y mask _ => [x, y, mask]
  | extractValue x _ _ => [x]
  | insertValue x elem _ => [x, elem]
  | _ => []

inductive Part : Constant → Constant → Prop
  | whole (c : Constant) : Part c c
  | inside {part child c : Constant} (listed : child ∈ c.children) (deeper : Part part child) : Part part c

def Names (c : Constant) (id : SymbolId) : Prop := ∃ part, Part part c ∧ part.pointsTo id = true

theorem sizeOf_child {child c : Constant} (listed : child ∈ c.children) : sizeOf child < sizeOf c := by
  cases c <;> simp only [children, List.mem_cons, List.not_mem_nil, or_false] at listed
  case array | vector | struct =>
    have below := List.sizeOf_lt_of_mem listed
    simp only [array.sizeOf_spec, vector.sizeOf_spec, struct.sizeOf_spec]
    omega
  case gep =>
    rcases listed with rfl | listed
    · simp only [gep.sizeOf_spec]
      omega
    · have below := List.sizeOf_lt_of_mem listed
      simp only [gep.sizeOf_spec]
      omega
  all_goals
    rcases listed with rfl | rfl | rfl <;>
      simp only [cast.sizeOf_spec, inRange.sizeOf_spec, select.sizeOf_spec, fneg.sizeOf_spec, binary.sizeOf_spec,
        compare.sizeOf_spec, extractElement.sizeOf_spec, insertElement.sizeOf_spec, shuffleVector.sizeOf_spec,
        extractValue.sizeOf_spec, insertValue.sizeOf_spec] <;>
      omega

theorem anyAnywhere_iff {p : Constant → Bool} {cs : List Constant} :
    anyAnywhere p cs = true ↔ ∃ c ∈ cs, anywhere p c = true := by
  induction cs with
  | nil => simp [anyAnywhere]
  | cons c cs ih => simp [anyAnywhere, ih]

theorem anywhere_step {p : Constant → Bool} {c : Constant} :
    anywhere p c = true ↔ p c = true ∨ ∃ child ∈ c.children, anywhere p child = true := by
  cases c <;> simp [anywhere, children, anyAnywhere_iff, or_assoc]

theorem exists_part {p : Constant → Bool} {c : Constant} (found : anywhere p c = true) :
    ∃ part, Part part c ∧ p part = true := by
  rcases anywhere_step.mp found with here | ⟨child, listed, deeper⟩
  · exact ⟨c, .whole c, here⟩
  · have smaller := sizeOf_child listed
    obtain ⟨part, below, test⟩ := exists_part deeper
    exact ⟨part, .inside listed below, test⟩
termination_by sizeOf c

theorem anywhere_of_part {p : Constant → Bool} {part c : Constant} (below : Part part c) (test : p part = true) :
    anywhere p c = true := by
  induction below with
  | whole => exact anywhere_step.mpr (.inl test)
  | inside listed _ ih => exact anywhere_step.mpr (.inr ⟨_, listed, ih⟩)

theorem mentions_iff (c : Constant) (id : SymbolId) : c.mentions id = true ↔ c.Names id :=
  ⟨exists_part, fun ⟨_, below, test⟩ => anywhere_of_part below test⟩

theorem not_names_undef (t : Ty) (id : SymbolId) : ¬ (undef t).Names id := by
  rw [← mentions_iff]
  exact Bool.noConfusion

end Constant

/-- The constants that the fields of a tuple hold, nested tuples included. -/
inductive Meta.Holds : Meta → Constant → Prop
  | here {fields : List Meta} {c : Constant} (listed : .const c ∈ fields) : Holds (.tuple fields) c
  | nested {fields inner : List Meta} {c : Constant} (listed : .tuple inner ∈ fields)
      (deeper : Holds (.tuple inner) c) : Holds (.tuple fields) c

/-- The constants that metadata is made of, at any depth of tuples and of nodes with their fields. -/
inductive Meta.Carries : Meta → Constant → Prop
  | const (c : Constant) : Carries (.const c) c
  | tuple {fields : List Meta} {field : Meta} {c : Constant} (listed : field ∈ fields) (deeper : Carries field c) :
    Carries (.tuple fields) c
  | node {kind key : String} {fields : List (String × Meta)} {field : Meta} {c : Constant} (listed : (key, field) ∈ fields)
    (deeper : Carries field c) : Carries (.node kind fields) c
  | operands {fields : List Meta} {field : Meta} {c : Constant} (listed : field ∈ fields) (deeper : Carries field c) :
    Carries (.operands fields) c

namespace Meta

theorem countAll_eq_zero_iff {target : SymbolId} {fields : List Meta} :
    countAll target fields = 0 ↔ ∀ field ∈ fields, countField target field = 0 := by
  induction fields with
  | nil => simp [countAll]
  | cons first rest ih => simp [countAll, ih]

theorem countAll_eq_zero {target : SymbolId} {fields : List Meta}
    (unnamed : ∀ c, (tuple fields).Holds c → ¬ c.Names target) : countAll target fields = 0 := by
  refine countAll_eq_zero_iff.mpr fun field listed => ?_
  have smaller := List.sizeOf_lt_of_mem listed
  cases field with
  | const c =>
    have absent : ¬ c.mentions target = true := fun mentions => unnamed c (.here listed) ((c.mentions_iff target).mp mentions)
    exact if_neg absent
  | tuple inner =>
    have deeper : sizeOf inner < sizeOf (tuple inner) := by simp
    exact @countAll_eq_zero target inner fun c held => unnamed c (.nested listed held)
  | _ => rfl
termination_by sizeOf fields

theorem countMentions_eq_zero_iff {target : SymbolId} {body : Meta} :
    body.countMentions target = 0 ↔ ∀ c, body.Holds c → ¬ c.Names target := by
  constructor
  · intro none c held
    induction held with
    | here listed =>
      have field := countAll_eq_zero_iff.mp none _ listed
      intro named
      simp [countField, (Constant.mentions_iff _ _).mpr named] at field
    | nested listed deeper ih => exact ih (countAll_eq_zero_iff.mp none _ listed)
  · intro unnamed
    cases body with
    | tuple fields => exact countAll_eq_zero unnamed
    | _ => rfl

end Meta

def Value.Names : Value → SymbolId → Prop
  | .const _ c, id => c.Names id
  | _, _ => False

theorem Value.mentions_iff (v : Value) (id : SymbolId) : v.mentions id = true ↔ v.Names id := by
  cases v <;> simp [Value.mentions, Value.Names, Constant.mentions_iff]

theorem Function.value_names {f : Function} {id : SymbolId} (named : f.value.Names id) : id = f.id := by
  have mentioned := (Value.mentions_iff f.value id).mpr named
  rcases Constant.anywhere_step.mp mentioned with here | ⟨child, listed, _⟩
  · exact (beq_iff_eq.mp here).symm
  · cases listed

/-- The function names a symbol in an operand or in its personality. -/
def Function.Names (f : Function) (id : SymbolId) : Prop :=
  (∃ o ∈ f.operands, o.value.Names id) ∨ ∃ c, f.personality = some c ∧ c.Names id

theorem Function.mentionCount_eq_zero_iff {f : Function} {id : SymbolId} : f.mentionCount id = 0 ↔ ¬ f.Names id := by
  have operands : (f.operands.filter fun o => o.value.mentions id).length = 0 ↔ ∀ o ∈ f.operands, ¬ o.value.Names id := by
    simp [List.filter_eq_nil_iff, ← Value.mentions_iff]
  have personality : (if (f.personality.map (·.mentions id)).getD false then 1 else 0) = 0 ↔
      ∀ c, f.personality = some c → ¬ c.Names id := by
    cases f.personality with
    | none => simp
    | some c => simp [← Constant.mentions_iff]
  rw [mentionCount, Nat.add_eq_zero_iff, personality, operands, Names, not_or]
  simp only [not_exists, not_and]
  exact and_comm

def Operation.callArguments : Operation Value → List (Argument Value)
  | .call _ c => c.args
  | .catchPad _ args => args
  | .cleanupPad _ args => args
  | _ => []

def Terminator.callArguments : Terminator Value → List (Argument Value)
  | .invoke c _ _ => c.args
  | .callBr c _ _ => c.args
  | _ => []

def Block.callArguments (b : Block) : List (Argument Value) := b.insts.flatMap (·.op.callArguments) ++ b.term.op.callArguments

def Function.WritesOut (f : Function) (node : Meta) : Prop := ∃ b ∈ f.blocks, .debugNode node ∈ b.callArguments

/-- A metadata argument that is written out, as a tuple or a node, names the symbol. None of its parts is an operand. -/
def Function.SpellsOut (f : Function) (id : SymbolId) : Prop :=
  ∃ b ∈ f.blocks, ∃ node, .debugNode node ∈ b.callArguments ∧ ∃ c, node.Carries c ∧ c.Names id

theorem Function.SpellsOut.of_written {f : Function} {id : SymbolId} (spelled : f.SpellsOut id) :
    ∃ node, f.WritesOut node ∧ ∃ c, node.Carries c ∧ c.Names id := by
  obtain ⟨b, member, node, listed, named⟩ := spelled
  exact ⟨node, ⟨b, member, listed⟩, named⟩

theorem Function.WritesOut.spellsOut {f : Function} {node : Meta} (written : f.WritesOut node) {c : Constant}
    (carried : node.Carries c) {id : SymbolId} (named : c.Names id) : f.SpellsOut id := by
  obtain ⟨b, member, listed⟩ := written
  exact ⟨b, member, node, listed, c, carried, named⟩

theorem Function.writesOut_iff {f : Function} {node : Meta} : f.WritesOut node ↔
    ∃ b ∈ f.blocks, (∃ i ∈ b.insts, .debugNode node ∈ i.op.callArguments) ∨ .debugNode node ∈ b.term.op.callArguments := by
  simp only [WritesOut, Block.callArguments, List.mem_append, List.mem_flatMap]

@[simp] theorem Operation.arguments_mapOperands (h : Bool → Value → Value) (op : Operation Value) :
    (op.mapOperands h).callArguments = op.callArguments.map (Argument.mapOperands h) := by
  cases op <;> rfl

@[simp] theorem Terminator.arguments_mapOperands (h : Bool → Value → Value) (t : Terminator Value) :
    (t.mapOperands h).callArguments = t.callArguments.map (Argument.mapOperands h) := by
  cases t <;> rfl

theorem Argument.mem_mapOperands_debugNode {h : Bool → Value → Value} {args : List (Argument Value)} {node : Meta} :
    .debugNode node ∈ args.map (Argument.mapOperands h) ↔ .debugNode node ∈ args := by
  have same : ∀ a : Argument Value, a.mapOperands h = .debugNode node ↔ a = .debugNode node := by
    intro a
    cases a <;> simp [Argument.mapOperands]
  simp only [List.mem_map, same, exists_eq_right]

theorem Block.arguments_mapOperands (h : Bool → Value → Value) (b : Block) :
    (b.mapOperands h).callArguments = b.callArguments.map (Argument.mapOperands h) := by
  simp [callArguments, mapOperands, Instruction.mapOperands, Terminal.mapOperands, List.flatMap_map, List.map_flatMap]

theorem Function.writesOut_mapOperands {h : Bool → Value → Value} {f : Function} {node : Meta} :
    (f.mapOperands h).WritesOut node ↔ f.WritesOut node := by
  constructor
  · rintro ⟨_, mapped, listed⟩
    obtain ⟨b, member, rfl⟩ := List.mem_map.mp mapped
    rw [Block.arguments_mapOperands] at listed
    exact ⟨b, member, Argument.mem_mapOperands_debugNode.mp listed⟩
  · rintro ⟨b, member, listed⟩
    refine ⟨_, List.mem_map_of_mem member, ?_⟩
    rw [Block.arguments_mapOperands]
    exact Argument.mem_mapOperands_debugNode.mpr listed

theorem foldl_add_eq_zero_iff {α : Type} {g : α → Nat} {start : Nat} {xs : List α} :
    xs.foldl (fun n x => n + g x) start = 0 ↔ start = 0 ∧ ∀ x ∈ xs, g x = 0 := by
  induction xs generalizing start with
  | nil => simp
  | cons first rest ih => simp [ih, and_assoc]

namespace Module

/-- The places of a module that may name a symbol: functions, initializers and metadata tuples. -/
inductive Names (m : Module) (id : SymbolId) : Prop
  | function (f : Function) (listed : f ∈ m.functions) (named : f.Names id)
  | initializer (g : Global) (listed : g ∈ m.globals) (c : Constant) (init : g.init = some c) (named : c.Names id)
  | tuple (d : MetaDef) (listed : d ∈ m.metaDefs) (c : Constant) (held : d.body.Holds c) (named : c.Names id)

/-- What calls write out among their arguments, and tuple definitions with all that is in them. -/
inductive WrittenOut (m : Module) (id : SymbolId) : Prop
  | argument (f : Function) (listed : f ∈ m.functions) (spelled : f.SpellsOut id)
  | tuple (d : MetaDef) (listed : d ∈ m.metaDefs) (fields : List Meta) (body : d.body = .tuple fields) (c : Constant)
    (carried : d.body.Carries c) (named : c.Names id)

/-- A function has no references exactly if nothing names it once it is dropped. -/
theorem referenceCount_eq_zero_iff {m : Module} {id : SymbolId} :
    m.referenceCount id = 0 ↔ ¬ (m.dropFunction id).Names id := by
  have globals : (m.globals.filter (·.mentions id)).length = 0 ↔
      ∀ g ∈ m.globals, ∀ c, g.init = some c → ¬ c.Names id := by
    simp only [List.length_eq_zero_iff, List.filter_eq_nil_iff, Global.mentions]
    refine forall₂_congr fun g _ => ?_
    cases g.init <;> simp [Constant.mentions_iff]
  rw [referenceCount, Nat.add_eq_zero_iff, Nat.add_eq_zero_iff, globals, foldl_add_eq_zero_iff, foldl_add_eq_zero_iff]
  simp only [Function.mentionCount_eq_zero_iff, Meta.countMentions_eq_zero_iff, true_and]
  constructor
  · rintro ⟨⟨functions, globals⟩, tuples⟩ (⟨f, listed, named⟩ | ⟨g, listed, c, init, named⟩ | ⟨d, listed, c, held, named⟩)
    · exact functions f listed named
    · exact globals g listed c init named
    · exact tuples d listed c held named
  · intro unnamed
    exact ⟨⟨fun f listed named => unnamed (.function f listed named), fun g listed c init named =>
      unnamed (.initializer g listed c init named)⟩, fun d listed c held named => unnamed (.tuple d listed c held named)⟩

end Module

end CallFusion.Ir
