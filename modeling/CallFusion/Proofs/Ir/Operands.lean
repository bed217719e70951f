import CallFusion.Ir.Module

/-! Laws of operand slots: `mapOperands` changes what the slots hold and nothing else. -/

namespace CallFusion.Ir

variable {α β γ : Type}

def Operand.map (f : Bool → α → β) (o : Operand α) : Operand β := ⟨f o.debug o.value, o.debug⟩

@[simp] theorem Operand.map_value (f : Bool → α → β) (o : Operand α) : (o.map f).value = f o.debug o.value := rfl

@[simp] theorem Operand.map_debug (f : Bool → α → β) (o : Operand α) : (o.map f).debug = o.debug := rfl

@[simp] theorem Operand.map_code (f : Bool → α → β) (v : α) : (Operand.code v).map f = .code (f false v) := rfl

namespace Argument

theorem operands_mapOperands (f : Bool → α → β) (a : Argument α) :
    (a.mapOperands f).operands = a.operands.map (Operand.map f) := by
  cases a <;> simp [operands, mapOperands, Operand.map, Function.comp_def]

theorem mapOperands_mapOperands (f : Bool → α → β) (g : Bool → β → γ) (a : Argument α) :
    (a.mapOperands f).mapOperands g = a.mapOperands fun debug v => g debug (f debug v) := by
  cases a <;> simp [mapOperands, Function.comp_def]

theorem mapOperands_congr {f g : Bool → α → β} (a : Argument α)
    (agree : ∀ o ∈ a.operands, f o.debug o.value = g o.debug o.value) : a.mapOperands f = a.mapOperands g := by
  cases a <;> simp_all [operands, mapOperands]

theorem mapOperands_same : (Argument.mapOperands fun _ v => v) = (id : Argument α → Argument α) := by
  funext a
  cases a <;> simp [mapOperands]

theorem bare_mapOperands (f : Bool → α → β) (a : Argument α) : (a.mapOperands f).bare = a.bare.mapOperands f := by
  cases a <;> rfl

theorem operands_bare (a : Argument α) : a.bare.operands = a.operands := by
  cases a <;> rfl

end Argument

theorem args_mapOperands_congr {f g : Bool → α → β} (args : List (Argument α))
    (agree : ∀ o ∈ args.flatMap Argument.operands, f o.debug o.value = g o.debug o.value) :
    args.map (Argument.mapOperands f) = args.map (Argument.mapOperands g) := by
  apply List.map_congr_left
  intro a member
  exact a.mapOperands_congr fun o present => agree o (List.mem_flatMap.mpr ⟨a, member, present⟩)

theorem args_operands_mapOperands (f : Bool → α → β) (args : List (Argument α)) :
    (args.map (Argument.mapOperands f)).flatMap Argument.operands =
      (args.flatMap Argument.operands).map (Operand.map f) := by
  simp [List.flatMap_map, List.map_flatMap, Argument.operands_mapOperands]

namespace Call

theorem argOperands_mapOperands (f : Bool → α → β) (c : Call α) :
    (c.mapOperands f).argOperands = c.argOperands.map (Operand.map f) :=
  args_operands_mapOperands f c.args

theorem bundleOperands_mapOperands (f : Bool → α → β) (c : Call α) :
    (c.mapOperands f).bundleOperands = c.bundleOperands.map (Operand.map f) := by
  simp [bundleOperands, mapOperands, List.flatMap_map, List.map_flatMap, Function.comp_def]

theorem mapOperands_mapOperands (f : Bool → α → β) (g : Bool → β → γ) (c : Call α) :
    (c.mapOperands f).mapOperands g = c.mapOperands fun debug v => g debug (f debug v) := by
  simp [mapOperands, Argument.mapOperands_mapOperands, Function.comp_def]

theorem mapOperands_congr {f g : Bool → α → β} (c : Call α) (callee : f false c.callee = g false c.callee)
    (args : ∀ o ∈ c.argOperands, f o.debug o.value = g o.debug o.value)
    (inputs : ∀ o ∈ c.bundleOperands, f o.debug o.value = g o.debug o.value) :
    c.mapOperands f = c.mapOperands g := by
  have bundles : ∀ b ∈ c.bundles, b.inputs.map (f false) = b.inputs.map (g false) := by
    intro b member
    apply List.map_congr_left
    intro v present
    exact inputs (.code v) (List.mem_flatMap.mpr ⟨b, member, List.mem_map.mpr ⟨v, present, rfl⟩⟩)
  simp only [mapOperands, callee, args_mapOperands_congr c.args args, mk.injEq, true_and]
  apply List.map_congr_left
  intro b member
  rw [bundles b member]

theorem mapOperands_same (c : Call α) : (c.mapOperands fun _ v => v) = c := by
  simp [mapOperands, Argument.mapOperands_same]

end Call

namespace Operation

theorem operands_mapOperands (f : Bool → α → β) (op : Operation α) :
    (op.mapOperands f).operands = op.operands.map (Operand.map f) := by
  cases op with
  | alloca flags elem count align space => cases count <;> rfl
  | call tail c =>
    simp only [mapOperands, operands, Call.argOperands_mapOperands, Call.bundleOperands_mapOperands,
      List.map_cons, List.map_append]
    rfl
  | catchPad scope args | cleanupPad scope args =>
    simp only [mapOperands, operands, args_operands_mapOperands, List.map_cons, Operand.map_code]
  | _ => simp [mapOperands, operands, List.flatMap_map, List.map_flatMap, Function.comp_def]

theorem mapOperands_mapOperands (f : Bool → α → β) (g : Bool → β → γ) (op : Operation α) :
    (op.mapOperands f).mapOperands g = op.mapOperands fun debug v => g debug (f debug v) := by
  cases op <;>
    simp [mapOperands, Argument.mapOperands_mapOperands, Call.mapOperands_mapOperands, Function.comp_def]

theorem mapOperands_congr {f g : Bool → α → β} (op : Operation α)
    (agree : ∀ o ∈ op.operands, f o.debug o.value = g o.debug o.value) : op.mapOperands f = op.mapOperands g := by
  cases op with
  | alloca flags elem count align space => cases count <;> simp_all [operands, mapOperands, Operand.code]
  | phi flags incoming =>
    have entries : ∀ p ∈ incoming, f false p.1 = g false p.1 ∧ f false p.2 = g false p.2 := by
      intro p member
      refine ⟨agree (.code p.1) ?_, agree (.code p.2) ?_⟩ <;>
        exact List.mem_flatMap.mpr ⟨p, member, by simp⟩
    simp only [mapOperands, phi.injEq, true_and]
    exact List.map_congr_left fun p member => by rw [(entries p member).1, (entries p member).2]
  | landingPad cleanup clauses =>
    simp only [mapOperands, landingPad.injEq, true_and]
    exact List.map_congr_left fun p member => by
      rw [show f false p.2 = g false p.2 from agree (.code p.2) (List.mem_map.mpr ⟨p, member, rfl⟩)]
  | call tail c =>
    simp only [operands, List.mem_cons, List.mem_append] at agree
    rw [mapOperands, mapOperands, c.mapOperands_congr (agree (.code c.callee) (.inl rfl))
      (fun o present => agree o (.inr (.inl present))) (fun o present => agree o (.inr (.inr present)))]
  | catchPad scope args | cleanupPad scope args =>
    simp only [operands, List.mem_cons] at agree
    rw [mapOperands, mapOperands, args_mapOperands_congr args fun o present => agree o (.inr present)]
    rw [show f false scope = g false scope from agree (.code scope) (.inl rfl)]
  | _ => simp_all [operands, mapOperands, Operand.code]

theorem mapOperands_same (op : Operation α) : (op.mapOperands fun _ v => v) = op := by
  cases op <;> simp [mapOperands, Call.mapOperands_same, Argument.mapOperands_same]

@[simp] theorem hasResult_mapOperands (f : Bool → α → β) (op : Operation α) :
    (op.mapOperands f).hasResult = op.hasResult := by
  cases op <;> rfl

end Operation

namespace Terminator

theorem operands_mapOperands (f : Bool → α → β) (t : Terminator α) :
    (t.mapOperands f).operands = t.operands.map (Operand.map f) := by
  cases t with
  | ret value => cases value <;> rfl
  | catchSwitch scope handlers unwind =>
    cases unwind <;> simp [mapOperands, operands, Function.comp_def]
  | cleanupRet pad unwind => cases unwind <;> rfl
  | invoke c normal unwind | callBr c normal others =>
    simp [mapOperands, operands, Call.argOperands_mapOperands, Call.bundleOperands_mapOperands]
    rfl
  | _ => simp [mapOperands, operands, List.flatMap_map, List.map_flatMap, Function.comp_def]

theorem mapOperands_mapOperands (f : Bool → α → β) (g : Bool → β → γ) (t : Terminator α) :
    (t.mapOperands f).mapOperands g = t.mapOperands fun debug v => g debug (f debug v) := by
  cases t <;> simp [mapOperands, Call.mapOperands_mapOperands, Function.comp_def]

theorem mapOperands_congr {f g : Bool → α → β} (t : Terminator α)
    (agree : ∀ o ∈ t.operands, f o.debug o.value = g o.debug o.value) : t.mapOperands f = t.mapOperands g := by
  cases t with
  | ret value => cases value <;> simp_all [operands, mapOperands, Operand.code]
  | switch x fallback cases =>
    simp only [operands, List.mem_cons, List.mem_flatMap] at agree
    have entries : ∀ p ∈ cases, f false p.1 = g false p.1 ∧ f false p.2 = g false p.2 := by
      intro p member
      exact ⟨agree (.code p.1) (.inr (.inr ⟨p, member, by simp⟩)),
        agree (.code p.2) (.inr (.inr ⟨p, member, by simp⟩))⟩
    simp only [mapOperands, switch.injEq]
    exact ⟨agree (.code x) (.inl rfl), agree (.code fallback) (.inr (.inl rfl)),
      List.map_congr_left fun p member => by rw [(entries p member).1, (entries p member).2]⟩
  | invoke c normal unwind =>
    simp only [operands, List.mem_cons, List.mem_append] at agree
    simp only [mapOperands, invoke.injEq]
    exact ⟨c.mapOperands_congr (agree (.code c.callee) (.inl rfl)) (fun o present => agree o (.inr (.inl present)))
        (fun o present => agree o (.inr (.inr (.inr (.inr present))))),
      agree (.code normal) (.inr (.inr (.inl rfl))), agree (.code unwind) (.inr (.inr (.inr (.inl rfl))))⟩
  | callBr c normal others =>
    simp only [operands, List.mem_cons, List.mem_append, List.mem_map] at agree
    simp only [mapOperands, callBr.injEq]
    exact ⟨c.mapOperands_congr (agree (.code c.callee) (.inl rfl)) (fun o present => agree o (.inr (.inl present)))
        (fun o present => agree o (.inr (.inr (.inr (.inr present))))),
      agree (.code normal) (.inr (.inr (.inl rfl))),
      List.map_congr_left fun v member => agree (.code v) (.inr (.inr (.inr (.inl ⟨v, member, rfl⟩))))⟩
  | catchSwitch scope handlers unwind =>
    simp only [operands, List.mem_cons, List.mem_append, List.mem_map] at agree
    simp only [mapOperands, catchSwitch.injEq]
    refine ⟨agree (.code scope) (.inl rfl),
      List.map_congr_left fun v member => agree (.code v) (.inr (.inl ⟨v, member, rfl⟩)), ?_⟩
    cases unwind with
    | none => rfl
    | some v => exact congrArg some (agree (.code v) (.inr (.inr ⟨v, by simp, rfl⟩)))
  | cleanupRet pad unwind => cases unwind <;> simp_all [operands, mapOperands, Operand.code]
  | _ => simp_all [operands, mapOperands, Operand.code]

theorem mapOperands_same (t : Terminator α) : (t.mapOperands fun _ v => v) = t := by
  cases t <;> simp [mapOperands, Call.mapOperands_same]

@[simp] theorem hasResult_mapOperands (f : Bool → α → β) (t : Terminator α) :
    (t.mapOperands f).hasResult = t.hasResult := by
  cases t <;> rfl

theorem targets_mapOperands (f : Bool → α → β) (t : Terminator α) :
    (t.mapOperands f).targets = t.targets.map (f false) := by
  cases t with
  | catchSwitch scope handlers unwind => cases unwind <;> simp [mapOperands, targets]
  | cleanupRet pad unwind => cases unwind <;> rfl
  | _ => simp [mapOperands, targets, Function.comp_def]

theorem code_mem_operands_of_mem_targets {t : Terminator α} {v : α} (present : v ∈ t.targets) :
    .code v ∈ t.operands := by
  cases t with
  | switch x fallback cases =>
    rcases List.mem_cons.mp present with rfl | present
    · simp [operands]
    · obtain ⟨p, member, rfl⟩ := List.mem_map.mp present
      exact List.mem_cons_of_mem _ (List.mem_cons_of_mem _ (List.mem_flatMap.mpr ⟨p, member, by simp⟩))
  | invoke c normal unwind | callBr c normal others =>
    rcases List.mem_cons.mp present with rfl | present
    · simp [operands]
    · simp_all [operands, Operand.code]
  | _ => simp_all [targets, operands, Operand.code]

end Terminator

@[simp] theorem Instruction.mapOperands_id (g : Bool → Value → Value) (i : Instruction) :
    (i.mapOperands g).id = i.id := rfl

@[simp] theorem Instruction.mapOperands_ident (g : Bool → Value → Value) (i : Instruction) :
    (i.mapOperands g).ident = i.ident := rfl

@[simp] theorem Instruction.mapOperands_op (g : Bool → Value → Value) (i : Instruction) :
    (i.mapOperands g).op = i.op.mapOperands g := rfl

@[simp] theorem Instruction.mapOperands_value (g : Bool → Value → Value) (i : Instruction) :
    (i.mapOperands g).value = i.value := rfl

@[simp] theorem Terminal.mapOperands_id (g : Bool → Value → Value) (t : Terminal) :
    (t.mapOperands g).id = t.id := rfl

@[simp] theorem Terminal.mapOperands_ident (g : Bool → Value → Value) (t : Terminal) :
    (t.mapOperands g).ident = t.ident := rfl

@[simp] theorem Terminal.mapOperands_op (g : Bool → Value → Value) (t : Terminal) :
    (t.mapOperands g).op = t.op.mapOperands g := rfl

@[simp] theorem Terminal.mapOperands_value (g : Bool → Value → Value) (t : Terminal) :
    (t.mapOperands g).value = t.value := rfl

namespace Block

theorem inst_slot {b : Block} {i : Instruction} (carried : i ∈ b.insts) {o : Operand Value} (present : o ∈ i.op.operands) :
    o ∈ b.operands :=
  List.mem_append_left _ (List.mem_flatMap.mpr ⟨i, carried, present⟩)

theorem term_slot {b : Block} {o : Operand Value} (present : o ∈ b.term.op.operands) : o ∈ b.operands :=
  List.mem_append_right _ present

@[simp] theorem mapOperands_insts (g : Bool → Value → Value) (b : Block) :
    (b.mapOperands g).insts = b.insts.map (·.mapOperands g) := rfl

@[simp] theorem mapOperands_term (g : Bool → Value → Value) (b : Block) :
    (b.mapOperands g).term = b.term.mapOperands g := rfl

@[simp] theorem mapOperands_id (g : Bool → Value → Value) (b : Block) : (b.mapOperands g).id = b.id := rfl

theorem operands_mapOperands (g : Bool → Value → Value) (b : Block) :
    (b.mapOperands g).operands = b.operands.map (Operand.map g) := by
  simp [operands, List.flatMap_map, List.map_flatMap, Operation.operands_mapOperands, Terminator.operands_mapOperands]

theorem mapOperands_congr {g h : Bool → Value → Value} (b : Block)
    (agree : ∀ o ∈ b.operands, g o.debug o.value = h o.debug o.value) : b.mapOperands g = b.mapOperands h := by
  have insts : b.insts.map (·.mapOperands g) = b.insts.map (·.mapOperands h) := by
    apply List.map_congr_left
    intro i member
    rw [Instruction.mapOperands, Instruction.mapOperands, i.op.mapOperands_congr fun o present =>
      agree o (List.mem_append_left _ (List.mem_flatMap.mpr ⟨i, member, present⟩))]
  rw [mapOperands, mapOperands, insts, Terminal.mapOperands, Terminal.mapOperands,
    b.term.op.mapOperands_congr fun o present => agree o (List.mem_append_right _ present)]

theorem mapOperands_mapOperands (g h : Bool → Value → Value) (b : Block) :
    (b.mapOperands g).mapOperands h = b.mapOperands fun debug v => h debug (g debug v) := by
  simp [mapOperands, Instruction.mapOperands, Terminal.mapOperands, Operation.mapOperands_mapOperands,
    Terminator.mapOperands_mapOperands]

theorem mapOperands_same (b : Block) : (b.mapOperands fun _ v => v) = b := by
  simp [mapOperands, Instruction.mapOperands, Terminal.mapOperands, Operation.mapOperands_same,
    Terminator.mapOperands_same]

end Block

namespace Function

theorem block_slot {f : Function} {b : Block} (member : b ∈ f.blocks) {o : Operand Value} (present : o ∈ b.operands) :
    o ∈ f.operands :=
  List.mem_flatMap.mpr ⟨b, member, present⟩

@[simp] theorem mapOperands_blocks (g : Bool → Value → Value) (f : Function) :
    (f.mapOperands g).blocks = f.blocks.map (·.mapOperands g) := rfl

@[simp] theorem mapOperands_params (g : Bool → Value → Value) (f : Function) :
    (f.mapOperands g).params = f.params := rfl

theorem operands_mapOperands (g : Bool → Value → Value) (f : Function) :
    (f.mapOperands g).operands = f.operands.map (Operand.map g) := by
  simp [operands, List.flatMap_map, List.map_flatMap, Block.operands_mapOperands]

theorem mapOperands_eq_self {g : Bool → Value → Value} (f : Function)
    (kept : ∀ o ∈ f.operands, g o.debug o.value = o.value) : f.mapOperands g = f := by
  have blocks : f.blocks.map (·.mapOperands g) = f.blocks.map fun b => b := by
    apply List.map_congr_left
    intro b member
    calc b.mapOperands g = b.mapOperands fun _ v => v :=
          b.mapOperands_congr fun o present => kept o (List.mem_flatMap.mpr ⟨b, member, present⟩)
      _ = b := b.mapOperands_same
  rw [mapOperands, blocks, List.map_id']

theorem mapOperands_mapOperands (g h : Bool → Value → Value) (f : Function) :
    (f.mapOperands g).mapOperands h = f.mapOperands fun debug v => h debug (g debug v) := by
  simp [mapOperands, Block.mapOperands_mapOperands]

theorem mapOperands_same (f : Function) : (f.mapOperands fun _ v => v) = f := f.mapOperands_eq_self fun _ _ => rfl

@[simp] theorem localIds_mapOperands (g : Bool → Value → Value) (f : Function) :
    (f.mapOperands g).localIds = f.localIds := by
  simp [localIds, List.flatMap_map, Function.comp_def]

end Function

end CallFusion.Ir
