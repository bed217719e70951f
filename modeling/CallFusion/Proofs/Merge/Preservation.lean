import CallFusion.Proofs.Merge.Completion
import CallFusion.Proofs.Merge.Redirection

/-!
Runs keep modules sound. Each edit of a run leaves a sound module when it is done: renaming, adding the copy,
redirecting the stub call, replacing the marshalling calls and erasing what nothing refers to any more. Metadata
that calls write out among their arguments stays what it was, and a function that is named only there is erased all
the same.
-/

namespace CallFusion

open Ir

variable {σ : Type}

/-- A sound module that an edit leaves of another one: its globals, its aliases, its metadata and what its calls write
out were there before, and functions go away only when the edit may erase them. -/
structure Derived (erasing : Prop) (m n : Module) : Prop where
  sound : n.Sound
  globals : n.globals = m.globals
  aliases : n.aliases = m.aliases
  metaDefs : n.metaDefs = m.metaDefs
  written : ∀ g ∈ n.functions, ∀ node, g.WritesOut node → ∃ f ∈ m.functions, f.WritesOut node
  kept : ¬ erasing → ∀ f ∈ m.functions, ∃ g ∈ n.functions, g.id = f.id

namespace Derived

variable {erasing : Prop} {m n k : Module} {f g : Function}

theorem refl (sound : m.Sound) : Derived erasing m m :=
  ⟨sound, rfl, rfl, rfl, fun f listed _ written => ⟨f, listed, written⟩, fun _ f listed => ⟨f, listed, rfl⟩⟩

theorem trans (first : Derived erasing m n) (second : Derived erasing n k) : Derived erasing m k where
  sound := second.sound
  globals := second.globals.trans first.globals
  aliases := second.aliases.trans first.aliases
  metaDefs := second.metaDefs.trans first.metaDefs
  written := by
    intro h listed node written
    obtain ⟨g, between, written⟩ := second.written h listed node written
    exact first.written g between node written
  kept := by
    intro keeps f listed
    obtain ⟨g, between, same⟩ := first.kept keeps f listed
    obtain ⟨h, there, again⟩ := second.kept keeps g between
    exact ⟨h, there, again.trans same⟩

theorem setFunction (sound : m.Sound) (listed : f ∈ m.functions) (function : g.WellFormed) {extra : SymbolId}
    (declared : m.Declares extra) (names : ∀ id, g.Names id → f.Names id ∨ id = extra)
    (written : ∀ node, g.WritesOut node → f.WritesOut node) : Derived erasing m (m.setFunction g) where
  sound := by
    refine Module.setFunction_sound sound function fun id named => ?_
    rcases names id named with kept | rfl
    · exact sound.declared id (.function f listed kept)
    · exact declared
  globals := rfl
  aliases := rfl
  metaDefs := rfl
  written := by
    intro h present node out
    rcases Module.mem_setFunction present with rfl | old
    · exact ⟨f, listed, written node out⟩
    · exact ⟨h, old, out⟩
  kept := by
    intro _ h present
    refine ⟨_, List.mem_map_of_mem present, ?_⟩
    by_cases here : h.id = g.id <;> simp [here]

theorem addFunction (sound : m.Sound) (listed : f ∈ m.functions) (function : g.WellFormed) (fresh : g.id ∉ m.symbolIds)
    (names : ∀ id, g.Names id → f.Names id) (written : ∀ node, g.WritesOut node → f.WritesOut node) :
    Derived erasing m (m.addFunction g) where
  sound := Module.addFunction_sound sound function fresh fun id named => sound.declared id (.function f listed (names id named))
  globals := rfl
  aliases := rfl
  metaDefs := rfl
  written := by
    intro h present node out
    rcases List.mem_append.mp present with old | new
    · exact ⟨h, old, out⟩
    · exact ⟨f, listed, written node (List.mem_singleton.mp new ▸ out)⟩
  kept := fun _ h present => ⟨h, List.mem_append_left _ present, rfl⟩

theorem removeFunction (sound : m.Sound) {target : SymbolId} (removed : m.removeFunction? target = some n) :
    Derived True m n := by
  have stays := Module.removeFunction?_sound sound removed
  obtain ⟨rfl, _⟩ := Module.removeFunction?_eq removed
  exact ⟨stays, rfl, rfl, rfl, fun g listed _ written => ⟨g, (List.mem_filter.mp listed).1, written⟩, fun keeps => absurd trivial keeps⟩

theorem writtenOut (derived : Derived erasing m n) {id : SymbolId} (out : n.WrittenOut id) : m.WrittenOut id := by
  cases out with
  | argument g stays spelled =>
    obtain ⟨node, written, c, carried, named⟩ := spelled.of_written
    obtain ⟨f, listed, before⟩ := derived.written g stays node written
    exact .argument f listed (before.spellsOut carried named)
  | tuple d listed fields body c carried named => exact .tuple d (derived.metaDefs ▸ listed) fields body c carried named

/-- What a module derived from a well-formed one lacks of being well formed is that metadata may be written out that
names a function which is gone. -/
theorem wellFormed_iff (derived : Derived erasing m n) (wellFormed : m.WellFormed) : n.WellFormed ↔
    ∀ f ∈ m.functions, (∀ g ∈ n.functions, g.id ≠ f.id) → ¬ n.WrittenOut f.id := by
  have others : ∀ id, m.Declares id → (∃ f ∈ m.functions, f.id = id) ∨ n.Declares id := by
    rintro id (function | other)
    · exact .inl function
    · exact .inr (.inr (by rwa [derived.globals, derived.aliases]))
  constructor
  · intro whole f listed gone out
    rcases whole.spelled f.id out with ⟨h, there, same⟩ | other
    · exact gone h there same
    · rw [derived.globals, derived.aliases] at other
      have apart := (List.nodup_append.mp wellFormed.distinct).2.2 f.id (List.mem_map_of_mem listed) f.id
      exact apart (by simpa using other) rfl
  · intro unspelled
    refine ⟨derived.sound, fun id out => ?_⟩
    rcases others id (wellFormed.spelled id (derived.writtenOut out)) with ⟨h, present, rfl⟩ | declared
    · by_contra absent
      exact unspelled h present (fun k there same => absent (.inl ⟨k, there, same⟩)) out
    · exact declared

end Derived

theorem Renaming.applyTo_derived {m : Module} (sound : m.Sound) (r : Renaming) {erasing : Prop} :
    Derived erasing m (r.applyTo m) where
  sound := {
    distinct := by
      have ids : (r.applyTo m).symbolIds = m.symbolIds := by
        simp [Module.symbolIds, applyTo, Function.comp_def]
      rw [ids]
      exact sound.distinct
    functions := by
      intro g listed
      obtain ⟨f, member, rfl⟩ := List.mem_map.mp listed
      exact Function.wellFormed_of_same (f := f) rfl rfl (sound.functions f member)
    declared := by
      intro id named
      have before : m.Declares id := by
        apply sound.declared id
        cases named with
        | function g listed named =>
          obtain ⟨f, member, rfl⟩ := List.mem_map.mp listed
          exact .function f member named
        | initializer g listed c init named => exact .initializer g listed c init named
        | tuple d listed c held named => exact .tuple d listed c held named
      rcases before with ⟨f, member, same⟩ | others
      · exact .inl ⟨_, List.mem_map.mpr ⟨f, member, rfl⟩, same⟩
      · exact .inr others }
  globals := rfl
  aliases := rfl
  metaDefs := rfl
  written := by
    intro g listed node written
    obtain ⟨f, member, rfl⟩ := List.mem_map.mp listed
    exact ⟨f, member, written⟩
  kept := fun _ f listed => ⟨_, List.mem_map_of_mem listed, rfl⟩

section

variable {m : Module} {erasing : Prop}

theorem Renaming.run_derived (sound : m.Sound) (r : Renaming) (mode : Mode) (found : Diagnostics) :
    Derived erasing m (r.run mode found m).1 := by
  unfold run
  split
  · exact .refl sound
  · exact applyTo_derived sound r

theorem renameCaller_derived (sound : m.Sound) (caller : String) : Derived erasing m (renameCaller caller m).1 := by
  unfold renameCaller
  split
  · exact .refl sound
  · exact Renaming.run_derived sound _ _ _

theorem renameCallee_derived (sound : m.Sound) (p : Profile) (callee : String) :
    Derived erasing m (renameCallee p callee m).1 := by
  unfold renameCallee
  dsimp only
  split
  · exact .refl sound
  · split
    · exact .refl sound
    · split
      · exact .refl sound
      · exact Renaming.run_derived sound _ _ _

theorem Redirected.setFunction_derived (sound : m.Sound) {rpc : RpcSite} {args : List (Argument Value)} {target g : Function}
    (redirected : Redirected rpc args target g) (listed : rpc.caller ∈ m.functions) (declared : m.Declares target.id) :
    Derived erasing m (m.setFunction g) :=
  .setFunction sound listed (redirected.wellFormed (sound.functions _ listed)) declared redirected.names redirected.written

theorem mergeExisting_derived (sound : m.Sound) (bridge : Bridge σ) (mode : Mode) (p : Profile) (caller callee : String)
    (l : Locator σ) : Derived erasing m ((mergeExisting bridge mode p caller callee m).run l).1.1 := by
  rw [mergeExisting, run_bind]
  cases found : ((findRedirection bridge mode p caller callee m).run l).1 with
  | error d => exact .refl sound
  | ok r =>
    obtain ⟨replaceable, target, _⟩ := findRedirection_checked found
    have caller := sound.functions _ replaceable.caller
    obtain ⟨g, replaced, redirected⟩ := replaceable.redirected caller.toCoherent m
    simp only [replaced]
    exact redirected.setFunction_derived sound replaceable.caller (.inl ⟨r.target, target, rfl⟩)

theorem declareCopy_derived (sound : m.Sound) {n : Module} {copy : Function} (declared : declareCopy m = .ok (n, copy)) :
    Derived erasing m n := by
  obtain ⟨later, _⟩ := declareCopy_sound sound declared
  rcases declareCopy_cases declared with ⟨rfl, _⟩ | ⟨rfl, rfl, _⟩
  · exact .refl sound
  · refine ⟨later, rfl, rfl, rfl, fun g listed node written => ?_, fun _ f listed => ⟨f, List.mem_append_left _ listed, rfl⟩⟩
    rcases List.mem_append.mp listed with old | new
    · exact ⟨g, old, written⟩
    · obtain rfl := List.mem_singleton.mp new
      obtain ⟨b, member, _⟩ := written
      cases member

theorem elideMarshalling_derived (sound : m.Sound) {f : Function} (listed : f ∈ m.functions)
    {marshalling : Option MarshallingPlan} (fits : ∀ plan, marshalling = some plan → plan.Fits f) (merged : String)
    (o : Outcome) : Derived erasing m (elideMarshalling merged marshalling (m, o)).1 := by
  unfold elideMarshalling
  dsimp only
  cases marshalling with
  | none => exact .refl sound
  | some plan =>
    dsimp only
    rcases apply_cases sound.coherent listed (fits plan rfl) with
      ⟨e, _, applied⟩ | ⟨n, copy, g, count, failed, declared, applied, reworked, _⟩
    · rw [applied]
      exact .refl sound
    · rw [applied]
      obtain ⟨later, intrinsic⟩ := declareCopy_sound sound declared
      have kept := (declareCopy_coherent sound.coherent declared).2 f listed
      exact (declareCopy_derived sound declared).trans
        (.setFunction later kept (reworked.wellFormed (sound.functions f listed)) intrinsic reworked.names reworked.written)

end

theorem eraseDoomed_derived {merged source : SymbolId} {state : Module × Outcome} (sound : state.1.Sound)
    (doomed : Function) : Derived True state.1 (eraseDoomed merged source state doomed).1 := by
  obtain ⟨m, o⟩ := state
  unfold eraseDoomed
  dsimp only
  split
  · next n removed => exact .removeFunction sound removed
  · split
    · next g detached =>
      split at detached
      · obtain ⟨f, found, detached⟩ := Option.bind_eq_some_iff.mp detached
        have listed := (function?_mem found).1
        have same := Function.detachSubprogram?_same detached
        exact .setFunction sound listed (same.wellFormed (sound.functions f listed)) (.inl ⟨f, listed, rfl⟩)
          (fun id named => .inl (same.names named)) fun node written => same.writesOut written
      · cases detached
    · exact .refl sound

theorem eraseDoomed_foldl_derived {merged source : SymbolId} (chain : List Function) {state : Module × Outcome}
    (sound : state.1.Sound) : Derived True state.1 (chain.foldl (eraseDoomed merged source) state).1 := by
  induction chain generalizing state with
  | nil => exact .refl sound
  | cons doomed chain ih =>
    have step : Derived True state.1 (eraseDoomed merged source state doomed).1 := eraseDoomed_derived sound doomed
    exact step.trans (ih step.sound)

section

variable {m : Module} {plan : MergePlan} {merged : String}

theorem MergePlan.Checked.target_derived (checked : plan.Checked merged m) (sound : m.Sound) (p : Profile)
    {erasing : Prop} : Derived erasing m (m.addFunction (plan.target p m)) := by
  have same := plan.target_same p m
  have source := sound.functions _ checked.source
  have copied := same.wellFormed (Function.withSignature_wellFormed source checked.cloned)
  exact .addFunction sound checked.source copied (checked.target_fresh p)
    (fun id named => Function.withSignature_names checked.cloned (same.names named))
    fun node written => Function.withSignature_writesOut checked.cloned (same.writesOut written)

theorem commitMerge_derived (checked : plan.Checked merged m) (sound : m.Sound) (p : Profile) (callee : String) :
    Derived True m (commitMerge p callee plan m).1 := by
  obtain ⟨g, redirected, replaced, _, listed⟩ := checked.redirected sound.coherent p
  have caller : plan.rpc.caller ∈ (m.addFunction (plan.target p m)).functions :=
    List.mem_append_left _ checked.replaceable.caller
  rw [commitMerge_of_replaced replaced]
  have added : Derived True m (m.addFunction (plan.target p m)) := checked.target_derived sound p
  have after : Derived True _ ((m.addFunction (plan.target p m)).setFunction g) :=
    redirected.setFunction_derived added.sound caller (m.addFunction_declares _)
  have elided : Derived True _ (elideMarshalling _ _ (_, plan.begun)).1 := elideMarshalling_derived after.sound listed
    (fun e planned => (checked.marshalling e planned).of_same (plan.target_same p m)) (plan.target p m).name plan.begun
  exact ((added.trans after).trans elided).trans (eraseDoomed_foldl_derived _ elided.sound)

end

theorem mergeCallee_derived {m : Module} (sound : m.Sound) (bridge : Bridge σ) (p : Profile) (caller callee : String)
    (l : Locator σ) : Derived True m ((mergeCallee bridge p caller callee m).run l).1.1 := by
  rw [mergeCallee, run_bind]
  cases planned : ((planMerge bridge p caller callee m).run l).1 with
  | error d => exact .refl sound
  | ok plan => exact commitMerge_derived (planMerge_checked planned) sound p callee

theorem runMode_derived {m : Module} (sound : m.Sound) (bridge : Bridge σ) (o : Options) (l : Locator σ) :
    Derived (o.mode = .mergeCallee) m ((runMode bridge o m).run l).1.1 := by
  unfold runMode
  dsimp only
  split
  · exact renameCaller_derived sound o.caller
  · exact renameCallee_derived sound o.effectiveProfile o.callee
  · next mode =>
    rw [mode, eq_self_iff_true]
    exact mergeCallee_derived sound bridge o.effectiveProfile o.caller o.callee l
  · exact mergeExisting_derived sound bridge .mergeExisting o.effectiveProfile o.caller o.callee l
  · exact mergeExisting_derived sound bridge .replaceStub o.effectiveProfile o.caller o.callee l
  · exact .refl sound

/-- A run leaves a sound module, whether or not it reports a change. The module is well formed exactly if no metadata that
is written out in it names a function which the run has erased: in every mode that erases nothing, and for every module
in which no written-out metadata names one of its functions. -/
theorem run_keeps_wellFormed (bridge : Bridge σ) (state : σ) (o : Options) {m : Module} (wellFormed : m.WellFormed) :
    (run bridge state o m).1.1.Sound ∧
    ((run bridge state o m).1.1.WellFormed ↔
      ∀ f ∈ m.functions, (∀ g ∈ (run bridge state o m).1.1.functions, g.id ≠ f.id) →
        ¬ (run bridge state o m).1.1.WrittenOut f.id) ∧
    (o.mode ≠ .mergeCallee → (run bridge state o m).1.1.WellFormed) ∧
    ((∀ f ∈ m.functions, ¬ m.WrittenOut f.id) → (run bridge state o m).1.1.WellFormed) := by
  have derived : Derived (o.mode = .mergeCallee) m (run bridge state o m).1.1 :=
    runMode_derived wellFormed.toSound bridge o (Locator.new [o.caller, o.callee] state)
  have precise := derived.wellFormed_iff wellFormed
  refine ⟨derived.sound, precise, fun mode => precise.mpr fun f listed gone => ?_, fun unspelled => precise.mpr ?_⟩
  · obtain ⟨g, there, same⟩ := derived.kept mode f listed
    exact absurd same (gone g there)
  · exact fun f listed _ out => unspelled f listed (derived.writtenOut out)

theorem outside_unspelled {id : Nat} {name : String} {types : List Ty} {symbol : SymbolId} :
    ¬ (outside id name types).SpellsOut symbol := by
  rintro ⟨b, member, _⟩
  cases member

theorem calling_unspelled {id : Nat} {name : String} {target : Function} {symbol : SymbolId} :
    ¬ (calling id name target).SpellsOut symbol := by
  rintro ⟨b, member, node, listed, _⟩
  obtain rfl := List.mem_singleton.mp member
  simp [Block.callArguments, Operation.callArguments, Terminator.callArguments, nullCall] at listed

theorem Halves.program_unspelled (width : UInt64) : ∀ f ∈ (program width).functions, ∀ id, ¬ f.SpellsOut id := by
  simp only [program, List.forall_mem_cons]
  exact ⟨fun _ => outside_unspelled, fun _ => outside_unspelled, fun _ => outside_unspelled, fun _ => calling_unspelled,
    fun _ => calling_unspelled, fun _ => outside_unspelled, List.forall_mem_nil _⟩

theorem Halves.program_not_writtenOut (width : UInt64) (id : SymbolId) : ¬ (program width).WrittenOut id := by
  rintro (⟨f, listed, spelled⟩ | ⟨d, listed, _⟩)
  · exact program_unspelled width f listed id spelled
  · cases listed

theorem Halves.program_wellFormed (width : UInt64) : (program width).WellFormed :=
  ⟨program_sound width, fun id out => absurd out (program_not_writtenOut width id)⟩

theorem merged_halves_wellFormed : (Halves.program 64).WellFormed ∧
    (run Bridge.inProcess () Halves.merging (Halves.program 64)).1.1.WellFormed := by
  have wellFormed := Halves.program_wellFormed 64
  refine ⟨wellFormed, (run_keeps_wellFormed Bridge.inProcess () Halves.merging wellFormed).2.2.2 ?_⟩
  exact fun f _ => Halves.program_not_writtenOut 64 f.id

namespace Halves

def idle : Function :=
  { outside 4 "main_2nd_for_b" [] with
    blocks := [⟨0, .named "entry", [], ⟨1, .number 0, .void, .ret none, []⟩⟩] }

def tag : Function := outside 6 "g" [.metadata]

/-- A function that passes on a tuple which it writes out and which names the callee. -/
def tagged : Function where
  id := ⟨7⟩
  symbol := .named "h"
  result := .void
  params := []
  blocks := [{
    id := 0
    ident := .named "entry"
    insts := [⟨1, .number 0, .void,
      .call "" { callee := tag.value, args := [.debugNode (.tuple [.const (.symbol ⟨4⟩ (.pointer (.func .void [] false) 0))])] }, []⟩]
    term := ⟨2, .number 0, .void, .ret none, []⟩ }]

def taggedProgram : Module where
  functions := [stub, idle, caller, tag, tagged]

theorem tagged_operands : tagged.operands = [.code tag.value] := rfl

theorem tagged_wellFormed : tagged.WellFormed where
  numbered := by
    change List.Nodup [0, 1, 2]
    decide
  directed := by simp [tagged, Terminator.targets]
  joined := by simp [tagged, Function.Joins]
  owned := by
    rw [tagged_operands]
    exact List.forall_mem_singleton.mpr trivial

theorem idle_wellFormed : idle.WellFormed where
  numbered := by
    change List.Nodup [0, 1]
    decide
  directed := by simp [idle, Terminator.targets]
  joined := by simp [idle]
  owned := List.forall_mem_nil _

theorem idle_name : idle.name = "main_2nd_for_b" := source_name

theorem tag_name : tag.name = "g" := by apply Ident.shown_named (c := 'g') <;> simp

theorem tagged_name : tagged.name = "h" := by apply Ident.shown_named (c := 'h') <;> simp

theorem taggedProgram_findFunction (name : String) : taggedProgram.findFunction name =
    if name = "main.make__rpc" then some stub
    else if name = "main_2nd_for_b" then some idle
    else if name = "main.main" then some caller
    else if name = "g" then some tag
    else if name = "h" then some tagged
    else none := by
  simp only [Module.findFunction, taggedProgram, List.find?_cons, List.find?_nil, stub_name, idle_name, caller_name, tag_name,
    tagged_name]
  grind

theorem idle_names {symbol : SymbolId} : ¬ idle.Names symbol := by
  rintro (⟨o, present, _⟩ | ⟨c, personality, _⟩)
  · cases present
  · cases personality

theorem tagged_names {symbol : SymbolId} (named : tagged.Names symbol) : symbol = tag.id := by
  rcases named with ⟨o, present, names⟩ | ⟨c, personality, _⟩
  · rw [tagged_operands] at present
    obtain rfl := List.mem_singleton.mp present
    exact Function.value_names names
  · cases personality

theorem taggedProgram_sound : taggedProgram.Sound := by
  apply sound_of_functions
  case distinct =>
    change List.Nodup [SymbolId.mk 1, ⟨4⟩, ⟨5⟩, ⟨6⟩, ⟨7⟩]
    decide
  case functions =>
    simp only [List.forall_mem_cons]
    exact ⟨outside_wellFormed _ _ _, idle_wellFormed, calling_wellFormed _ _ _, outside_wellFormed _ _ _,
      tagged_wellFormed, List.forall_mem_nil _⟩
  case declared =>
    simp only [List.forall_mem_cons]
    refine ⟨fun _ named => absurd named outside_names, fun _ named => absurd named idle_names,
      fun _ named => ⟨stub, ?_, (calling_names named).symm⟩, fun _ named => absurd named outside_names,
      fun _ named => ⟨tag, ?_, (tagged_names named).symm⟩, List.forall_mem_nil _⟩
    · simp
    · simp

theorem idle_unspelled {symbol : SymbolId} : ¬ idle.SpellsOut symbol := by
  rintro ⟨b, member, node, listed, _⟩
  obtain rfl := List.mem_singleton.mp member
  cases listed

theorem tagged_spelled {symbol : SymbolId} (spelled : tagged.SpellsOut symbol) : symbol = idle.id := by
  obtain ⟨b, member, node, listed, c, held, named⟩ := spelled
  obtain rfl := List.mem_singleton.mp member
  obtain rfl := Argument.debugNode.inj (List.mem_singleton.mp listed)
  cases held with
  | tuple listed deeper =>
    obtain rfl := List.mem_singleton.mp listed
    cases deeper
    exact (beq_iff_eq.mp ((Constant.mentions_iff _ _).mpr named)).symm

theorem tagged_spells : tagged.SpellsOut idle.id :=
  ⟨_, List.mem_cons_self, _, List.mem_cons_self, _, .tuple List.mem_cons_self (.const _), _, .whole _, rfl⟩

theorem taggedProgram_spelled : ∀ f ∈ taggedProgram.functions, ∀ id, f.SpellsOut id → id = idle.id := by
  simp only [taggedProgram, List.forall_mem_cons]
  exact ⟨fun _ spelled => absurd spelled outside_unspelled, fun _ spelled => absurd spelled idle_unspelled,
    fun _ spelled => absurd spelled calling_unspelled, fun _ spelled => absurd spelled outside_unspelled,
    fun _ => tagged_spelled, List.forall_mem_nil _⟩

theorem taggedProgram_wellFormed : taggedProgram.WellFormed where
  toSound := taggedProgram_sound
  spelled := by
    rintro id (⟨f, listed, spelled⟩ | ⟨d, listed, _⟩)
    · have present : idle ∈ taggedProgram.functions := List.mem_cons_of_mem _ List.mem_cons_self
      exact .inl ⟨idle, present, (taggedProgram_spelled f listed id spelled).symm⟩
    · cases listed

def idleMerged : Function :=
  { idle with
    id := ⟨8⟩
    symbol := .named "NewCallee_b"
    params := [2, 3, 4].map fun i => ⟨i, .number 0, .bytePointer, []⟩ }

def nulls : List (Argument Value) := List.replicate 3 (.value [] (.const 4 (.null .bytePointer)))

theorem taggedProgram_planned : ∃ found l,
    (planMerge Bridge.inProcess .go "a" "b" taggedProgram).run (Locator.new ["a", "b"] ()) =
      (.ok ⟨idle, ⟨caller, nullCall stub⟩, nulls, idleMerged, none, found⟩, l) := by
  have present : taggedProgram.findFunction (Profile.go.realCalleeName "b") = some idle := by
    simp [taggedProgram_findFunction, Profile.realCalleeName, Profile.go]
  have fresh : taggedProgram.findFunction (Profile.go.mergedCalleeName "b") = none := by
    simp [taggedProgram_findFunction, Profile.mergedCalleeName, Profile.go]
  have cloned : idle.withSignature [.bytePointer, .bytePointer, .bytePointer] (Profile.go.mergedCalleeName "b")
      taggedProgram.freshSymbol = .ok idleMerged := rfl
  have located := findRpc_of_caller (m := taggedProgram) (by simp [taggedProgram_findFunction])
    (by simp [taggedProgram_findFunction]) (by simp [taggedProgram_findFunction]) (by simp [taggedProgram_findFunction]) rfl
  have planned := planMerge_ok ⟨by decide, by decide⟩ present fresh located rfl cloned rfl
  exact ⟨_, _, Prod.ext planned rfl⟩

def pointed : Function :=
  { caller with
    blocks := [{
      id := 0
      ident := .named "entry"
      insts := [⟨3, .number 0, .void, .call "" { callee := idleMerged.value, args := nulls }, []⟩]
      term := ⟨2, .number 0, .void, .ret none, []⟩ }]
    dropped := [(1, .number 0)] }

def taggedPointed : Module where
  functions := [stub, idle, pointed, tag, tagged, idleMerged]

theorem pointed_name : pointed.name = "main.main" := caller_name

theorem idleMerged_name : idleMerged.name = "NewCallee_b" := by apply Ident.shown_named (c := 'N') <;> simp

theorem taggedPointed_entryChain : entryChain .go "b" idle taggedPointed = [idle] := by
  have entry : taggedPointed.findFunction "main_for_b" = none := by
    simp [Module.findFunction, taggedPointed, stub_name, idle_name, pointed_name, tag_name, tagged_name, idleMerged_name]
  have start : Profile.go.runtimeStartName? "b" = none := rfl
  rw [entryChain, start, show Profile.go.entryName "b" = "main_for_b" by decide, entry]
  rfl

theorem taggedProgram_erased :
    (run Bridge.inProcess () merging taggedProgram).1.1 = taggedPointed.dropFunction idle.id := by
  obtain ⟨found, l, planned⟩ := taggedProgram_planned
  obtain ⟨module, _⟩ := run_of_found (o := merging) rfl planned
  have replaced : replaceRpc (taggedProgram.addFunction idleMerged) ⟨caller, nullCall stub⟩ idleMerged nulls =
    (taggedPointed, none) := rfl
  have removed : taggedPointed.removeFunction? idle.id = some (taggedPointed.dropFunction idle.id) := rfl
  have chain : entryChain merging.effectiveProfile merging.callee idle taggedPointed = [idle] := taggedPointed_entryChain
  rw [module, commitMerge_of_replaced replaced]
  simp only [elideMarshalling, chain, List.foldl_cons, List.foldl_nil, eraseDoomed, removed]

end Halves

/-- A merge erases a function that a call of another function still names in a tuple which it writes out. -/
theorem spelled_callee_erased : Halves.taggedProgram.WellFormed ∧
    ¬ (run Bridge.inProcess () Halves.merging Halves.taggedProgram).1.1.WellFormed := by
  refine ⟨Halves.taggedProgram_wellFormed, fun wellFormed => ?_⟩
  rw [Halves.taggedProgram_erased] at wellFormed
  have stays : Halves.tagged ∈ (Halves.taggedPointed.dropFunction Halves.idle.id).functions :=
    List.mem_filter.mpr ⟨by simp [Halves.taggedPointed], rfl⟩
  rcases wellFormed.spelled _ (.argument _ stays Halves.tagged_spells) with ⟨f, listed, same⟩ | ⟨g, listed, _⟩ | ⟨a, listed, _⟩
  · simpa [same] using (List.mem_filter.mp listed).2
  · cases listed
  · cases listed

end CallFusion
