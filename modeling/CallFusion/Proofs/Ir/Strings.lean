import CallFusion.Ir.Payload
import CallFusion.Proofs.Ir.Declarations
import CallFusion.Proofs.Ir.Sites

/-!
Strings behind addresses. A string constant is read off the printed form of a global, so it stays the same as long as the
global is printed the same: that is a matter of what symbols are called, and of the blocks whose addresses it takes.
-/

namespace CallFusion.Ir

namespace Constant

theorem renders_eq (names : Ir.Names) (cs : List Constant) : renders names cs = cs.map (render names) := by
  induction cs with
  | nil => simp [renders]
  | cons c cs ih => rw [renders, ih, List.map_cons]

theorem ident_congr {n k : Ir.Names} (symbols : n.symbol = k.symbol) {c : Constant}
    (blocks : ∀ id t b, Part (.blockAddress id t b) c → n.block id b = k.block id b) : ident n c = ident k c := by
  have inner : ∀ child ∈ c.children, ident n child = ident k child := fun child listed =>
    ident_congr symbols fun id t b part => blocks id t b (.inside listed part)
  have shown : ∀ child ∈ c.children, render n child = render k child := by
    intro child listed
    rw [render, render, inner child listed]
  have all : ∀ cs ⊆ c.children, renders n cs = renders k cs := by
    intro cs inside
    rw [renders_eq, renders_eq]
    exact List.map_congr_left fun child listed => shown child (inside listed)
  have here : ∀ id t b, c = .blockAddress id t b → n.block id b = k.block id b := by
    rintro id t b rfl
    exact blocks id t b (.whole _)
  cases c with
  | blockAddress id t b => simp only [ident, symbols, here id t b rfl]
  | _ => simp_all [ident, children]
termination_by sizeOf c
decreasing_by exact sizeOf_child listed

end Constant

namespace Function

variable {f g : Function}

def blockNames (f : Function) : List (LocalId × Ident) := f.blocks.map fun b => (b.id, b.ident)

theorem find?_key {α β : Type} [BEq α] [LawfulBEq α] {xs : List (α × β)} (distinct : (xs.map (·.1)).Nodup) {key : α}
    {value : β} (listed : (key, value) ∈ xs) : xs.find? (·.1 == key) = some (key, value) := by
  have present : (xs.find? (·.1 == key)).isSome = true := List.find?_isSome.mpr ⟨_, listed, beq_self_eq_true key⟩
  obtain ⟨found, here⟩ := Option.isSome_iff_exists.mp present
  have same : found.1 = key := by simpa using List.find?_some here
  rw [here, List.inj_on_of_nodup_map distinct (List.mem_of_find?_eq_some here) listed same]

theorem identOf_block (numbered : f.localIds.Nodup) {id : LocalId} {ident : Ident} (listed : (id, ident) ∈ f.blockNames) :
    f.identOf id = ident := by
  obtain ⟨b, member, form⟩ := List.mem_map.mp listed
  obtain ⟨own, own'⟩ : ∃ own, f.params.map (fun p => (p.id, p.ident)) ++ (f.blocks.flatMap fun b =>
      (b.id, b.ident) :: (b.insts.map (fun i => (i.id, i.ident)) ++ [(b.term.id, b.term.ident)])) = own := ⟨_, rfl⟩
  have keys : own.map (·.1) = f.localIds := by
    simp only [← own', localIds, List.map_append, List.map_map, List.map_flatMap, List.map_cons, List.map_nil]
    rfl
  have present : (id, ident) ∈ own := by
    rw [← own', ← form]
    exact List.mem_append_right _ (List.mem_flatMap.mpr ⟨b, member, List.mem_cons_self⟩)
  rw [identOf, idents, own', List.find?_append, find?_key (by rw [keys]; exact numbered) present]
  rfl

theorem blockNames_updateBlock {id : LocalId} {change : Block → Block}
    (kept : ∀ b, (change b).id = b.id ∧ (change b).ident = b.ident) : (f.updateBlock id change).blockNames = f.blockNames := by
  rw [blockNames, updateBlock, List.map_map, blockNames]
  refine List.map_congr_left fun b _ => ?_
  by_cases here : b.id = id
  · simp [here, kept b]
  · simp [here]

theorem blockNames_prune (f : Function) (site : CallSite) (normal : LocalId) :
    (f.prune site normal).blockNames = f.blockNames := by
  rw [blockNames, prune_blocks, List.map_map, blockNames]
  refine List.map_congr_left fun b _ => ?_
  rw [Function.comp_apply, Block.prune_id, Block.prune]
  split <;> rfl

theorem blockNames_mapOperands (f : Function) (r : Bool → Value → Value) : (f.mapOperands r).blockNames = f.blockNames := by
  rw [blockNames, mapOperands, List.map_map, blockNames]
  rfl

theorem blockNames_replaceCallSite (coherent : f.Coherent) {site : CallSite} (listed : site ∈ f.callSites)
    {call : Call Value} {type : Ty} (accepted : f.Accepts site call type) (attached : List Attachment) (m : Module) :
    (f.replaceCallSite m site call type attached).1.blockNames = f.blockNames := by
  obtain ⟨b, member, inside⟩ := List.mem_flatMap.mp listed
  obtain ⟨gone, _, ⟨_, replaced⟩ | ⟨normal, _, branch, _, _, _, replaced⟩⟩ :=
    replaceCallSite_form coherent member (CallSite.heldBy_of_mem inside) accepted attached m
  · rw [replaced]
    exact (blockNames_mapOperands _ _).trans (blockNames_updateBlock fun c => ⟨rfl, rfl⟩)
  · rw [replaced]
    refine (blockNames_mapOperands _ _).trans ((blockNames_prune _ site normal).trans ?_)
    exact blockNames_updateBlock fun c => ⟨rfl, rfl⟩

end Function

namespace Module

variable {m : Module} {f g : Function}

/-- The blocks whose addresses the globals take are blocks of the functions that they are said to be in. -/
def Anchored (m : Module) : Prop :=
  ∀ x ∈ m.globals, ∀ c, x.init = some c → ∀ id t b, Constant.Part (.blockAddress id t b) c →
    ∀ f ∈ m.functions, f.id = id → b ∈ f.blockNames.map (·.1)

/-- An edit of a function that leaves its name and those of its blocks. -/
structure Renews (f g : Function) : Prop where
  id : g.id = f.id
  symbol : g.symbol = f.symbol
  blocks : g.blockNames = f.blockNames
  coherent : g.Coherent

theorem setFunction_symbolIdent (coherent : m.Coherent) (listed : f ∈ m.functions) (renews : Renews f g) :
    (m.setFunction g).symbolIdent = m.symbolIdent := by
  have functions : (m.setFunction g).functions.map (fun h => (h.id, h.symbol)) = m.functions.map fun h => (h.id, h.symbol) :=
    map_setFunction coherent.distinct listed renews.id (by rw [renews.id, renews.symbol])
  funext id
  rw [symbolIdent, symbolIdent, symbols, symbols, functions]
  rfl

theorem setFunction_blockName (coherent : m.Coherent) (listed : f ∈ m.functions) (renews : Renews f g) {id : SymbolId}
    {b : LocalId} (anchored : ∀ h ∈ m.functions, h.id = id → b ∈ h.blockNames.map (·.1)) :
    ((m.setFunction g).names none).block id b = (m.names none).block id b := by
  have moved : (m.setFunction g).functions.find? (·.id == id) =
      (m.functions.find? (·.id == id)).map fun h => if h.id == g.id then g else h := function?_setFunction m g id
  have dropped : (m.setFunction g).dropped = m.dropped := rfl
  simp only [names, List.find?_append, moved, dropped]
  cases found : m.functions.find? (·.id == id) with
  | none => rfl
  | some h =>
    have present := List.mem_of_find?_eq_some found
    have number : h.id = id := by simpa using List.find?_some found
    by_cases here : h.id = g.id
    · obtain rfl := function_eq_of_id coherent.distinct present listed (here.trans renews.id)
      obtain ⟨⟨_, ident⟩, known, rfl⟩ := List.mem_map.mp (anchored h present number)
      have before := Function.identOf_block (coherent.functions h present).numbered known
      have after := Function.identOf_block renews.coherent.numbered (renews.blocks ▸ known)
      simp [here, before, after]
    · simp [here]

theorem setFunction_string? (coherent : m.Coherent) (anchored : m.Anchored) (listed : f ∈ m.functions) (renews : Renews f g)
    {x : Global} (present : x ∈ m.globals) :
    x.string? ((m.setFunction g).names none) = x.string? (m.names none) := by
  have symbols : ((m.setFunction g).names none).symbol = (m.names none).symbol :=
    setFunction_symbolIdent coherent listed renews
  have shown : ∀ c, x.init = some c → c.render ((m.setFunction g).names none) = c.render (m.names none) := by
    intro c init
    rw [Constant.render, Constant.render, Constant.ident_congr symbols]
    exact fun id t b part => setFunction_blockName coherent listed renews (anchored x present c init id t b part)
  unfold Global.string?
  split
  · rfl
  · rfl
  · next c _ init => rw [shown c init]

theorem setFunction_anchored (anchored : m.Anchored) (listed : f ∈ m.functions)
    (renews : Renews f g) : (m.setFunction g).Anchored := by
  intro x present c init id t b part h changed number
  rcases mem_setFunction changed with rfl | old
  · rw [renews.blocks]
    exact anchored x present c init id t b part f listed (renews.id.symm.trans number)
  · exact anchored x present c init id t b part h old number

end Module

section

variable {m n : Module} {f : Function} {v : Value} {x : Global} {steps : Nat}

theorem Value.global_mem (named : v.symbol?.bind m.global? = some x) : x ∈ m.globals := by
  obtain ⟨_, _, known⟩ := Option.bind_eq_some_iff.mp named
  exact List.mem_of_find?_eq_some known

theorem Function.globalBehind?_mem (found : f.globalBehind? m steps v = some x) : x ∈ m.globals := by
  induction steps generalizing v with
  | zero =>
    rw [Function.globalBehind?] at found
    split at found
    · next here => exact Option.some.inj found ▸ Value.global_mem here
    · cases found
  | succ steps ih =>
    rw [Function.globalBehind?] at found
    split at found
    · next here => exact Option.some.inj found ▸ Value.global_mem here
    · obtain ⟨w, _, behind⟩ := Option.bind_eq_some_iff.mp found
      exact ih behind

theorem Function.globalBehind?_congr (globals : n.globals = m.globals) :
    f.globalBehind? n steps v = f.globalBehind? m steps v := by
  have same : n.global? = m.global? := by
    funext id
    rw [Module.global?, Module.global?, globals]
  induction steps generalizing v with
  | zero => rw [Function.globalBehind?, Function.globalBehind?, same]
  | succ steps ih =>
    rw [Function.globalBehind?, Function.globalBehind?, same]
    simp only [funext fun w => ih (v := w)]

theorem Module.setFunction_stringOperand? {g h : Function} (coherent : m.Coherent) (anchored : m.Anchored)
    (listed : f ∈ m.functions) (renews : Renews f g) (v : Value) :
    (m.setFunction g).stringOperand? h v = m.stringOperand? h v := by
  have globals : (m.setFunction g).globals = m.globals := rfl
  rw [stringOperand?, stringOperand?, Function.globalBehind?_congr globals]
  cases found : h.globalBehind? m 16 v with
  | none => rfl
  | some x => exact setFunction_string? coherent anchored listed renews (Function.globalBehind?_mem found)

end
end CallFusion.Ir
