import CallFusion.Ir.Parser
import CallFusion.Proofs.Ir.Exchange
import CallFusion.Proofs.Ir.Renumbering
import CallFusion.Proofs.Ir.Simulation

/-!
Phis that can be written and read. A phi needs an entry, and lowering an invoke takes entries from the block it
unwinds to: all phis keep one exactly if none of that block lives on the invoke's edge alone. Text gives no phi
without entries, so what is lowered otherwise is not read again.
-/

namespace CallFusion.Ir

/-- A phi without entries. There is no text for it that could be read (`Module.parse_legalPhis`). -/
def Operation.isEmptyPhi {α : Type} : Operation α → Bool
  | phi _ [] => true
  | _ => false

/-- Every phi has an entry. -/
def Function.LegalPhis (f : Function) : Prop := ∀ b ∈ f.blocks, ∀ i ∈ b.insts, i.op.isEmptyPhi = false

/-! ### What is read -/

namespace Read

/-- Whatever the reader gives has the property. -/
def Yields {α : Type} (P : α → Prop) (reader : Read α) : Prop :=
  ∀ scope c a c', reader scope c = .ok (a, c') → P a

namespace Yields

variable {α β : Type} {P : α → Prop} {Q : β → Prop}

theorem pure {a : α} (holds : P a) : Yields P (Pure.pure a) := by
  intro scope c b c' read
  cases read
  exact holds

theorem after {reader : Read β} {next : β → Read α} (first : Yields Q reader)
    (holds : ∀ b, Q b → Yields P (next b)) : Yields P (reader >>= next) := by
  intro scope c a c' read
  change (reader scope c >>= fun r => next r.1 scope r.2) = .ok (a, c') at read
  obtain ⟨⟨b, d⟩, start, read⟩ := Except.bind_eq_ok_iff.mp read
  exact holds b (first scope c b d start) scope d a c' read

theorem bind {reader : Read β} {next : β → Read α} (holds : ∀ b, Yields P (next b)) :
    Yields P (reader >>= next) :=
  after (Q := fun _ => True) (fun _ _ _ _ _ => trivial) fun b _ => holds b

theorem under {change : Scope → Scope} {reader : Read α} (holds : Yields P reader) :
    Yields P (withReader change reader) :=
  fun scope c a c' read => holds (change scope) c a c' read

theorem fail (e : SyntaxError) : Yields P (Read.fail e) := by
  intro scope c a c' read
  cases read

theorem unexpected : Yields P (Read.unexpected : Read α) := by
  intro scope c a c' read
  cases read

end Yields

/-- No phi without entries is ever read. -/
theorem operation_not_empty_phi (word : String) : Yields (fun r => r.1.isEmptyPhi = false) (operation word) := by
  unfold operation allocaTail
  refine .bind fun fuel => ?_
  -- one case for each keyword; every one ends in an operation that is built there, or in an error
  split
  all_goals repeat' first
    | with_reducible refine .bind fun _ => ?_
    | with_reducible exact .pure rfl
    | with_reducible exact .fail _
    | with_reducible exact .unexpected
    | split
    | dsimp only

/-! An instruction is built by `operation`, and what is around it only collects instructions. -/

theorem blockBody_yields (n : Nat) : Yields (fun r => ∀ i ∈ r.1, i.op.isEmptyPhi = false) (blockBody n) := by
  induction n with
  | zero => exact .unexpected
  | succ n ih =>
    unfold blockBody
    refine .bind fun name => .bind fun next => ?_
    split
    · next w =>
      refine .bind fun _ => .bind fun id => ?_
      split
      · exact .bind fun _ => .bind fun _ => .bind fun _ => .bind fun _ => .pure (List.forall_mem_nil _)
      · refine .after (operation_not_empty_phi w) fun r some => ?_
        refine .bind fun _ => .bind fun _ => .bind fun _ => .after ih fun rest legal => ?_
        exact .pure (List.forall_mem_cons.mpr ⟨some, legal⟩)
    · exact .unexpected

theorem blocks_yields (n : Nat) : Yields (fun r => ∀ b ∈ r.1, ∀ i ∈ b.insts, i.op.isEmptyPhi = false) (blocks n) := by
  induction n with
  | zero => exact .unexpected
  | succ n ih =>
    unfold blocks
    refine .bind fun next => ?_
    extract_lets block
    have read : ∀ ident, Yields (fun r => ∀ b ∈ r.1, ∀ i ∈ b.insts, i.op.isEmptyPhi = false) (block ident) := by
      intro ident
      refine .bind fun id => .bind fun fuel => .after (blockBody_yields fuel) fun r legal => .bind fun next => ?_
      split
      · exact .bind fun fuel => .bind fun orders => .pure (List.forall_mem_singleton.mpr legal)
      · exact .bind fun fuel => .bind fun orders => .pure (List.forall_mem_singleton.mpr legal)
      · exact .after ih fun rest legal' => .pure (List.forall_mem_cons.mpr ⟨legal, legal'⟩)
    split
    · exact .bind fun _ => .bind fun ident => read ident
    · dsimp only
      split
      · exact .bind fun _ => .bind fun _ => .bind fun ident => read ident
      · exact .bind fun _ => .bind fun ident => read ident
    · exact .bind fun ident => read ident

theorem functionClauses_yields {f : Function} (bare : f.blocks = []) (n : Nat) :
    Yields (·.blocks = []) (functionClauses f n) := by
  induction n generalizing f with
  | zero => exact .pure bare
  | succ n ih =>
    unfold functionClauses
    repeat' first
      | with_reducible refine .bind fun _ => ?_
      | with_reducible exact .pure bare
      | with_reducible exact ih bare
      | split

theorem functionHeader_yields (id : SymbolId) (due : Nat) : Yields (·.blocks = []) (functionHeader id due) := by
  unfold functionHeader
  repeat' first
    | with_reducible refine .bind fun _ => ?_
    | with_reducible exact functionClauses_yields rfl _

theorem declaration_yields (id : SymbolId) (due : Nat) : Yields Function.LegalPhis (declaration id due) := by
  unfold declaration
  refine .bind fun fuel => .bind fun attached => .after (functionHeader_yields id due) fun f bare => .pure ?_
  intro b listed
  rw [show f.blocks = [] from bare] at listed
  cases listed

theorem definition_yields (outline : Option Module) (id : SymbolId) (due : Nat) :
    Yields Function.LegalPhis (definition outline id due) := by
  unfold definition
  refine .bind fun f => .bind fun fuel => .bind fun attached => .bind fun _ => ?_
  exact .after (.under (.bind fun fuel => blocks_yields fuel)) fun r legal => .pure legal

theorem entity_yields (outline : Option Module) {m : Module} (legal : ∀ f ∈ m.functions, f.LegalPhis) :
    Yields (fun n => ∀ f ∈ n.functions, f.LegalPhis) (entity outline m) := by
  have same : ∀ {n : Module}, n.functions = m.functions → ∀ f ∈ n.functions, f.LegalPhis := fun kept => kept ▸ legal
  have longer : ∀ {f : Function}, f.LegalPhis → ∀ g ∈ m.functions ++ [f], g.LegalPhis := fun more =>
    List.forall_mem_append.mpr ⟨legal, List.forall_mem_singleton.mpr more⟩
  unfold entity symbolEntity
  refine .bind fun next => ?_
  -- only declarations and definitions, the seventh and the eighth case, add a function
  split
  case h_7 => exact .bind fun _ => .after (declaration_yields _ _) fun f more => .pure (longer more)
  case h_8 => exact .bind fun _ => .after (definition_yields _ _ _) fun f more => .pure (longer more)
  all_goals
    repeat' first
      | with_reducible refine .bind fun _ => ?_
      | with_reducible exact .pure (same rfl)
      | with_reducible exact .unexpected
      | split

theorem entities_yields (outline : Option Module) (n : Nat) {m : Module} (legal : ∀ f ∈ m.functions, f.LegalPhis) :
    Yields (fun n => ∀ f ∈ n.functions, f.LegalPhis) (entities outline m n) := by
  induction n generalizing m with
  | zero => exact .pure legal
  | succ n ih =>
    unfold entities
    refine .bind fun c => ?_
    split
    · exact .pure legal
    · exact .after (entity_yields outline legal) fun m later => ih later

end Read

theorem Function.clearNumbers_legalPhis {f : Function} : f.clearNumbers.LegalPhis ↔ f.LegalPhis := by
  simp [LegalPhis, clearNumbers]

theorem checkNumbers_legalPhis {f g : Function} (checked : checkNumbers f = .ok g) (legal : f.LegalPhis) :
    g.LegalPhis := by
  obtain ⟨h, assigned, checked⟩ := Except.bind_eq_ok_iff.mp checked
  obtain rfl : h = g := by
    split at checked
    · cases checked
    · exact Except.pure_eq_ok_iff.mp checked
  obtain ⟨params, blocks, n, k, _, inside, rfl⟩ :=
    Function.assignNumbers_eq_ok_iff.mp (Except.mapError_eq_ok_iff.mp assigned)
  have kept : blocks.map Block.clearNumbers = f.blocks.map Block.clearNumbers :=
    (Assigned.mapM Block.assigned inside).kept
  rw [← Function.clearNumbers_legalPhis] at legal ⊢
  change ∀ b ∈ blocks.map Block.clearNumbers, _
  rwa [kept]

/-- Whatever a module is read from, every phi in it has an entry. -/
theorem Module.parse_legalPhis {source : String} {m : Module} (read : Module.parse source = .ok m) :
    ∀ f ∈ m.functions, f.LegalPhis := by
  unfold Module.parse at read
  obtain ⟨table, _, read⟩ := Except.bind_eq_ok_iff.mp read
  dsimp only at read
  split at read
  · obtain ⟨_, failed, _⟩ := Except.bind_eq_ok_iff.mp read
    cases failed
  -- the text is read twice, the first time for an outline, of which nothing is kept
  obtain ⟨outline, _, read⟩ := Except.bind_eq_ok_iff.mp read
  obtain ⟨_, _, read⟩ := Except.bind_eq_ok_iff.mp read
  obtain ⟨_, _, read⟩ := Except.bind_eq_ok_iff.mp read
  obtain ⟨⟨n, c⟩, entities, read⟩ := Except.bind_eq_ok_iff.mp read
  obtain ⟨functions, checked, read⟩ := Except.bind_eq_ok_iff.mp read
  obtain rfl := Except.pure_eq_ok_iff.mp read
  have legal := Read.entities_yields _ _ (List.forall_mem_nil _) _ _ _ _ entities
  intro g listed
  obtain ⟨f, member, same⟩ := Except.exists_of_mem_mapM checked listed
  exact checkNumbers_legalPhis same (legal f member)

/-! ### What is lowered -/

namespace Operation

variable {α β : Type}

theorem isEmptyPhi_mapOperands (h : Bool → α → β) (op : Operation α) :
    (op.mapOperands h).isEmptyPhi = op.isEmptyPhi := by
  cases op with
  | phi flags incoming => cases incoming <;> rfl
  | _ => rfl

theorem isEmptyPhi_of_plain {op : Operation Value} (plain : op.Plain) : op.isEmptyPhi = false := by
  cases op with
  | phi flags incoming => exact (plain flags incoming rfl).elim
  | _ => rfl

end Operation

namespace Instruction

/-- The instruction is no phi, or a phi with an entry that comes from another block. -/
def EnteredBeside (i : Instruction) (pred : LocalId) : Prop :=
  ∀ flags incoming, i.op = .phi flags incoming → ∃ e ∈ incoming, e.2 ≠ .block pred

theorem withoutEntry_isEmptyPhi (i : Instruction) (pred : LocalId) :
    (i.withoutEntry pred).op.isEmptyPhi = false ↔ i.EnteredBeside pred := by
  cases op : i.op with
  | phi flags incoming =>
    have empty : ∀ entries : List (Value × Value),
        (Operation.phi flags entries).isEmptyPhi = false ↔ entries ≠ [] := by
      intro entries
      cases entries <;> simp [Operation.isEmptyPhi]
    simp [EnteredBeside, withoutEntry, op, empty, Value.block?_eq_some]
  | _ => simp [EnteredBeside, withoutEntry, op, Operation.isEmptyPhi]

end Instruction

namespace Function

/-- The phis of the block that the site unwinds to have entries from other blocks. Where that is also the block
it returns to, nothing is asked. -/
def EnteredOtherwise (f : Function) (site : CallSite) : Prop :=
  ∀ d ∈ f.blocks, site.unwind? = some d.id → site.normal? ≠ some d.id → ∀ i ∈ d.insts, i.EnteredBeside site.block

variable {f : Function} {site : CallSite}

theorem exchange_legal (legal : f.LegalPhis) {new : Instruction} (plain : new.op.Plain) (h : Bool → Value → Value) :
    ((f.updateBlock site.block (·.exchange site.id new)).mapOperands h).LegalPhis := by
  intro c mapped j inside
  obtain ⟨d, changed, rfl⟩ := List.mem_map.mp mapped
  obtain ⟨i, carried, rfl⟩ := List.mem_map.mp inside
  obtain ⟨b, member, rfl⟩ := List.mem_map.mp changed
  rw [Instruction.mapOperands_op, Operation.isEmptyPhi_mapOperands]
  split at carried
  · rcases Block.mem_exchange carried with rfl | ⟨old, _⟩
    · exact Operation.isEmptyPhi_of_plain plain
    · exact legal b member i old
  · exact legal b member i carried

/-- Lowering keeps the phis legal exactly if those of the abandoned block have other entries. -/
theorem lowered_legal_iff (R : Replacement) (plain : R.new.op.Plain) (legal : f.LegalPhis)
    (normal : R.site.normal? = some R.normal) {g : Function} (blocks : g.blocks = f.blocks.map R.lower) :
    g.LegalPhis ↔ f.EnteredOtherwise R.site := by
  have lowered : ∀ (d : Block) (i : Instruction), (R.lowerInst d.id i).op.isEmptyPhi = false ↔
      if R.site.unwind? = some d.id ∧ d.id ≠ R.normal then i.EnteredBeside R.site.block
      else i.op.isEmptyPhi = false := by
    intro d i
    rw [Replacement.lowerInst, Instruction.mapOperands_op, Operation.isEmptyPhi_mapOperands]
    split
    · exact i.withoutEntry_isEmptyPhi R.site.block
    · rfl
  constructor
  · intro after d member unwinds leaves i carried
    have inside : R.lowerInst d.id i ∈ (R.lower d).insts := by
      rw [R.lower_insts]
      refine List.mem_map.mpr ⟨i, ?_, rfl⟩
      split
      · exact List.mem_append_left _ carried
      · exact carried
    have kept := after (R.lower d) (blocks ▸ List.mem_map.mpr ⟨d, member, rfl⟩) _ inside
    -- a block that is also returned to keeps its entry, for the edge that stays
    have abandoned : d.id ≠ R.normal := fun same => leaves (same ▸ normal)
    rwa [lowered, if_pos ⟨unwinds, abandoned⟩] at kept
  · intro otherwise c changed j inside
    rw [blocks] at changed
    obtain ⟨d, member, rfl⟩ := List.mem_map.mp changed
    rw [R.lower_insts] at inside
    obtain ⟨i, carried, rfl⟩ := List.mem_map.mp inside
    have old : i ∈ d.insts ∨ i = R.new := by
      split at carried
      · simpa using carried
      · exact .inl carried
    rw [lowered]
    split
    · next abandoned =>
      rcases old with old | rfl
      · have leaves : R.site.normal? ≠ some d.id := fun same =>
          abandoned.2 (Option.some.inj (normal.symm.trans same)).symm
        exact otherwise d member abandoned.1 leaves i old
      · exact fun flags incoming phi => (plain flags incoming phi).elim
    · rcases old with old | rfl
      · exact legal d member i old
      · exact Operation.isEmptyPhi_of_plain plain

end Function

/-- Where all phis have entries and a site that the function still holds is replaced, all phis have entries after
it exactly if those of the block that is no longer unwound to have one from another block. Otherwise no text is
read as what the function has become. -/
theorem replaced_phis_legal_iff {f g : Function} {site : CallSite} {call : Call Value} {type : Ty}
    {attached : List Attachment} {m : Module} {b : Block} (coherent : f.Coherent) (legal : f.LegalPhis)
    (member : b ∈ f.blocks) (held : site.HeldBy b)
    (done : f.replaceCallSite m site call type attached = (g, none)) :
    (g.LegalPhis ↔ f.EnteredOtherwise site) ∧
      (¬ f.EnteredOtherwise site →
        ∀ source n, Module.parse source = .ok n → ∀ h ∈ n.functions, h.blocks ≠ g.blocks) := by
  suffices lowered : g.LegalPhis ↔ f.EnteredOtherwise site by
    refine ⟨lowered, fun emptied source n read h listed same => emptied (lowered.mp ?_)⟩
    rw [Function.LegalPhis, ← same]
    exact Module.parse_legalPhis read h listed
  have accepted := Function.accepts_of_replaced member held.1 (by rw [done])
  have plain : (f.newcomer site call type attached).op.Plain := fun _ _ equal => nomatch equal
  obtain ⟨gone, _, ⟨ordinary, form⟩ | ⟨normal, unwind, branch, exceptional, _, _, form⟩⟩ :=
    Function.replaceCallSite_form coherent member held accepted attached m
  · rw [done] at form
    cases form
    have none : site.unwind? = none := by rw [CallSite.unwind?, ordinary]; rfl
    refine iff_of_true (Function.exchange_legal legal plain _) fun d _ unwinds => ?_
    rw [none] at unwinds
    cases unwinds
  · rw [done] at form
    cases form
    have returns : site.normal? = some normal := by rw [CallSite.normal?, exceptional]; rfl
    have blocks := Replacement.lowered_blocks ⟨site, type, f.newcomer site call type attached, branch, normal⟩ f
    exact Function.lowered_legal_iff _ plain legal returns blocks

/-- A function in which two invokes unwind to one block. -/
def rescuing : Function where
  id := ⟨1⟩
  symbol := .named "rescuing"
  result := .void
  params := []
  blocks := [
    ⟨0, .named "first", [], ⟨1, .number 0, .void,
      .invoke { callee := .symbol ⟨2⟩ (.pointer (.func .void [] false) 0), args := [] } (.block 2) (.block 6), []⟩⟩,
    ⟨2, .named "second", [], ⟨3, .number 0, .void,
      .invoke { callee := .symbol ⟨2⟩ (.pointer (.func .void [] false) 0), args := [] } (.block 4) (.block 6), []⟩⟩,
    ⟨4, .named "done", [], ⟨5, .number 0, .void, .ret none, []⟩⟩,
    ⟨6, .named "failed",
      [⟨7, .named "p", .bytePointer,
        .phi [] [(.const 4 (.null .bytePointer), .block 0), (.const 5 (.null .bytePointer), .block 2)], []⟩],
      ⟨8, .number 0, .void, .ret none, []⟩⟩]

theorem rescuing_phis_legal :
    let site : CallSite := ⟨0, none, 1, .number 0, .void,
      { callee := .symbol ⟨2⟩ (.pointer (.func .void [] false) 0), args := [] }, [], some (.block 2, .block 6)⟩
    ∃ g, rescuing.replaceCallSite {} site site.call .void [] = (g, none) ∧ g.LegalPhis := by
  intro site
  have coherent : rescuing.Coherent := ⟨by decide, by simp [rescuing, Terminator.targets]⟩
  have legal : rescuing.LegalPhis := by simp [Function.LegalPhis, rescuing, Operation.isEmptyPhi]
  have found : site ∈ (rescuing.blocks.get ⟨0, by decide⟩).callSites := List.mem_cons_self
  have listed : site ∈ rescuing.callSites := List.mem_cons_self
  have accepted : rescuing.Accepts site site.call .void := .inl rfl
  obtain ⟨g, done⟩ := Function.replaceCallSite_completes coherent listed accepted [] {}
  have held := CallSite.heldBy_of_mem found
  refine ⟨g, done, (replaced_phis_legal_iff coherent legal List.mem_cons_self held done).1.mpr ?_⟩
  simp [Function.EnteredOtherwise, rescuing, site, CallSite.unwind?, CallSite.normal?, Instruction.EnteredBeside]
  exact ⟨_, _, .inr ⟨rfl, rfl⟩, by simp⟩

/-- The phi of the block that the invoke unwinds to is left without an entry. -/
theorem invoking_left_without_entries :
    invoking.LegalPhis ∧ invokingSite ∈ invoking.callSites ∧ invokingSite.isExceptional = true ∧
      ∃ g, invoking.replaceCallSite {} invokingSite invokingSite.call .bytePointer [] = (g, none) ∧ ¬ g.LegalPhis := by
  have legal : invoking.LegalPhis := by
    simp [Function.LegalPhis, invoking, Operation.isEmptyPhi]
  have succeeds : (invoking.replaceCallSite {} invokingSite invokingSite.call .bytePointer []).2 = none := rfl
  refine ⟨legal, List.mem_cons_self, rfl, _, Prod.ext rfl succeeds, fun after => ?_⟩
  have emptied : ∃ b ∈ (invoking.replaceCallSite {} invokingSite invokingSite.call .bytePointer []).1.blocks,
      ∃ i ∈ b.insts, i.op = .phi [] [] :=
    ⟨_, List.mem_cons_of_mem _ (List.mem_cons_of_mem _ List.mem_cons_self), _, List.mem_cons_self, rfl⟩
  obtain ⟨b, member, i, carried, phi⟩ := emptied
  have empty := after b member i carried
  rw [phi] at empty
  cases empty

end CallFusion.Ir
