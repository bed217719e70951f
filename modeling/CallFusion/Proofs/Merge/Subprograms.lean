import CallFusion.Proofs.Merge.Accounting

/-!
Debug subprograms. One subprogram describes one function, but the function that a merge adds is a copy and carries the
subprograms of its source for a while. Before the merge is over the source is erased, or the copy gives them up.
-/

namespace CallFusion

open Ir

def Ir.Function.subprograms (f : Function) : List Attachment := f.attachments.filter (·.name == "dbg")

def Ir.Module.subprograms (m : Module) : List Attachment := m.functions.flatMap (·.subprograms)

/-- What a function is known by, and the subprograms it carries. -/
structure Label where
  id : SymbolId
  name : String
  subprograms : List Attachment

def Ir.Function.label (f : Function) : Label := ⟨f.id, f.name, f.subprograms⟩

def Ir.Module.labels (m : Module) : List Label := m.functions.map Function.label

theorem labels_subprograms (m : Module) : m.labels.flatMap (·.subprograms) = m.subprograms := by
  rw [Module.labels, List.flatMap_map]
  rfl

theorem labels_ids (m : Module) : m.labels.map (·.id) = m.functionIds := by
  rw [Module.labels, List.map_map]
  rfl

/-- A module in which no function carries two subprograms, and none that was not carried once before. -/
structure Undoubled (m n : Module) : Prop where
  single : ∀ f ∈ n.functions, f.subprograms.length ≤ 1
  among : n.subprograms.Subperm m.subprograms

namespace Label

def strip (id : SymbolId) (l : Label) : Label := if l.id = id then { l with subprograms := l.subprograms.tail } else l

@[simp] theorem strip_id (id : SymbolId) (l : Label) : (l.strip id).id = l.id := by
  unfold strip
  split <;> rfl

theorem strip_self (l : Label) : l.strip l.id = { l with subprograms := l.subprograms.tail } := if_pos rfl

theorem strip_other {id : SymbolId} {l : Label} (other : l.id ≠ id) : l.strip id = l := if_neg other

variable {ls now : List Label} {l s : Label} {clone : SymbolId} {carried : List Attachment}

theorem map_strip_of_bare (bare : ∀ l ∈ ls, l.id = clone → l.subprograms = []) : ls.map (Label.strip clone) = ls := by
  refine (List.map_congr_left fun l listed => ?_).trans (List.map_id' ls)
  by_cases same : l.id = clone
  · subst same
    rw [strip_self, bare l listed rfl, List.tail_nil, ← bare l listed rfl]
  · exact strip_other same

theorem flatMap_perm (distinct : (ls.map (·.id)).Nodup) (listed : l ∈ ls) :
    ls.flatMap (·.subprograms) |>.Perm (l.subprograms ++ (ls.filter (·.id ≠ l.id)).flatMap (·.subprograms)) := by
  obtain ⟨ahead, behind, rfl⟩ := List.append_of_mem listed
  rw [List.map_append, List.map_cons, List.nodup_append, List.nodup_cons] at distinct
  obtain ⟨_, ⟨later, _⟩, earlier⟩ := distinct
  have first : ahead.filter (·.id ≠ l.id) = ahead := by
    refine List.filter_eq_self.mpr fun k present => ?_
    simpa using earlier k.id (List.mem_map.mpr ⟨k, present, rfl⟩) l.id (.head _)
  have second : behind.filter (·.id ≠ l.id) = behind := by
    refine List.filter_eq_self.mpr fun k present => ?_
    have other : k.id ≠ l.id := fun same => later (same ▸ List.mem_map.mpr ⟨k, present, rfl⟩)
    simpa using other
  rw [List.filter_append, List.filter_cons_of_neg (by simp), first, second, List.flatMap_append, List.flatMap_cons,
    List.flatMap_append]
  exact List.perm_append_comm_assoc _ _ _

theorem flatMap_sublist (part : now.Sublist ls) : (now.flatMap (·.subprograms)).Sublist (ls.flatMap (·.subprograms)) := by
  induction part with
  | slnil => exact .slnil
  | cons l _ ih =>
    rw [List.flatMap_cons]
    exact ih.trans (List.sublist_append_right _ _)
  | cons_cons l _ ih =>
    rw [List.flatMap_cons, List.flatMap_cons]
    exact ih.append_left _

theorem flatMap_filter (bare : ∀ l ∈ ls, l.id = clone → l.subprograms = []) :
    (ls.filter (·.id ≠ clone)).flatMap (·.subprograms) = ls.flatMap (·.subprograms) := by
  induction ls with
  | nil => rfl
  | cons l ls ih =>
    have rest := ih fun k listed => bare k (.tail _ listed)
    by_cases same : l.id = clone
    · rw [List.filter_cons_of_neg (by simp [same]), List.flatMap_cons, bare l (.head _) same, rest, List.nil_append]
    · rw [List.filter_cons_of_pos (by simp [same]), List.flatMap_cons, List.flatMap_cons, rest]

/-- Labels on the way: those of other numbers than the copy's are among the given ones, and the copy carries no more than
was given to it. -/
structure Spread (ls : List Label) (clone : SymbolId) (carried : List Attachment) (now : List Label) : Prop where
  distinct : (now.map (·.id)).Nodup
  others : (now.filter (·.id ≠ clone)).Sublist ls
  clone : ∀ l ∈ now, l.id = clone → l.subprograms.Sublist carried

namespace Spread

theorem filter (spread : Spread ls clone carried now) (keep : Label → Bool) : Spread ls clone carried (now.filter keep) where
  distinct := spread.distinct.sublist (List.filter_sublist.map _)
  others := (List.filter_sublist.filter _).trans spread.others
  clone := fun l listed => spread.clone l (List.mem_filter.mp listed).1

theorem strip (spread : Spread ls clone carried now) : Spread ls clone carried (now.map (Label.strip clone)) where
  distinct := by
    simpa [Function.comp_def] using spread.distinct
  others := by
    have same : (now.map (Label.strip clone)).filter (·.id ≠ clone) = now.filter (·.id ≠ clone) := by
      rw [List.filter_map]
      simp only [Function.comp_def, strip_id]
      refine (List.map_congr_left fun l kept => ?_).trans (List.map_id' _)
      exact strip_other (by simpa using (List.mem_filter.mp kept).2)
    rw [same]
    exact spread.others
  clone := by
    intro l listed same
    obtain ⟨k, there, rfl⟩ := List.mem_map.mp listed
    rw [strip_id] at same
    subst same
    rw [strip_self]
    exact (List.tail_sublist _).trans (spread.clone k there rfl)

theorem single (spread : Spread ls clone carried now) (few : ∀ l ∈ ls, l.subprograms.length ≤ 1) (fewer : carried.length ≤ 1) :
    ∀ l ∈ now, l.subprograms.length ≤ 1 := by
  intro l listed
  by_cases own : l.id = clone
  · exact (spread.clone l listed own).length_le.trans fewer
  · exact few l (spread.others.subset (List.mem_filter.mpr ⟨listed, by simpa using own⟩))

theorem subperm (spread : Spread ls clone carried now) (distinct : (ls.map (·.id)).Nodup) (source : s ∈ ls)
    (given : s.subprograms = carried)
    (settled : ∀ l ∈ now, l.id = clone → l.subprograms = [] ∨ s.id ∉ now.map (·.id)) :
    (now.flatMap (·.subprograms)).Subperm (ls.flatMap (·.subprograms)) := by
  by_cases carries : ∃ l ∈ now, l.id = clone ∧ l.subprograms ≠ []
  · obtain ⟨l, there, rfl, some⟩ := carries
    have gone : s.id ∉ now.map (·.id) := (settled l there rfl).resolve_left some
    have unlisted : (now.filter (·.id ≠ l.id)).filter (·.id ≠ s.id) = now.filter (·.id ≠ l.id) := by
      refine List.filter_eq_self.mpr fun k kept => ?_
      have other : k.id ≠ s.id := fun same => gone (same ▸ List.mem_map.mpr ⟨k, (List.mem_filter.mp kept).1, rfl⟩)
      simpa using other
    have others : (now.filter (·.id ≠ l.id)).Sublist (ls.filter (·.id ≠ s.id)) := by
      rw [← unlisted]
      exact spread.others.filter _
    have carried : l.subprograms.Sublist s.subprograms := given ▸ spread.clone l there rfl
    refine (flatMap_perm spread.distinct there).subperm.trans (List.Subperm.trans ?_ (flatMap_perm distinct source).symm.subperm)
    exact carried.subperm.append (flatMap_sublist others).subperm
  · have bare : ∀ l ∈ now, l.id = clone → l.subprograms = [] := fun l listed same =>
      by_contra fun some => carries ⟨l, listed, same, some⟩
    rw [← flatMap_filter bare]
    exact (flatMap_sublist spread.others).subperm

end Spread
end Label

/-! ### The edits of a run -/

section

variable {m n : Module} {f g : Function} {doomed : Function} {merged source : SymbolId}

theorem setFunction_labels (distinct : m.symbolIds.Nodup) (listed : f ∈ m.functions) (same : g.label = f.label) :
    (m.setFunction g).labels = m.labels :=
  Module.map_setFunction distinct listed (congrArg Label.id same) same

theorem setFunction_strip (distinct : m.symbolIds.Nodup) (listed : f ∈ m.functions) (lost : g.label = f.label.strip f.id) :
    (m.setFunction g).labels = m.labels.map (Label.strip f.id) := by
  have number : g.id = f.id := (congrArg Label.id lost).trans (Label.strip_id _ _)
  rw [Module.labels, Module.labels, Module.setFunction, List.map_map, List.map_map]
  refine List.map_congr_left fun h present => ?_
  by_cases here : h.id = g.id
  · obtain rfl := Module.function_eq_of_id distinct present listed (here.trans number)
    rw [Function.comp_apply, Function.comp_apply, if_pos (by simpa using here), lost]
  · rw [Function.comp_apply, Function.comp_apply, if_neg (by simpa using here)]
    exact (Label.strip_other (number ▸ here)).symm

theorem addFunction_labels (m : Module) (f : Function) : (m.addFunction f).labels = m.labels ++ [f.label] := by
  simp [Module.labels, Module.addFunction]

theorem dropFunction_labels (m : Module) (id : SymbolId) :
    (m.dropFunction id).labels = m.labels.filter (·.id ≠ id) := by
  rw [Module.labels, Module.labels, Module.dropFunction, List.filter_map]
  refine congrArg (List.map Function.label) (List.filter_congr fun f _ => ?_)
  by_cases same : f.id = id <;> simp [Function.label, same]

theorem label_of_frame (frame : g = { f with blocks := g.blocks, dropped := g.dropped }) : g.label = f.label := by
  rw [frame]
  rfl

theorem filter_eraseP {α : Type} (p : α → Bool) (as : List α) : (as.eraseP p).filter p = (as.filter p).tail := by
  induction as with
  | nil => rfl
  | cons a as ih =>
    by_cases holds : p a = true
    · rw [List.eraseP_cons_of_pos holds, List.filter_cons_of_pos holds, List.tail_cons]
    · rw [List.eraseP_cons_of_neg holds, List.filter_cons_of_neg holds, List.filter_cons_of_neg holds, ih]

theorem detachSubprogram?_label (detached : f.detachSubprogram? = some g) : g.label = f.label.strip f.id := by
  unfold Function.detachSubprogram? at detached
  split at detached
  · cases detached
    exact (congrArg (Label.mk f.id f.name) (filter_eraseP _ f.attachments)).trans (Label.strip_self f.label).symm
  · cases detached

theorem detachSubprogram?_none (kept : f.detachSubprogram? = none) : f.subprograms = [] := by
  unfold Function.detachSubprogram? at kept
  split at kept
  · cases kept
  · next bare =>
    refine List.filter_eq_nil_iff.mpr fun a listed named => bare ?_
    exact List.any_eq_true.mpr ⟨a, listed, named⟩

theorem strip_labels_of_bare (distinct : n.symbolIds.Nodup) (bare : ∀ f, n.function? merged = some f → f.subprograms = []) :
    n.labels.map (Label.strip merged) = n.labels := by
  refine Label.map_strip_of_bare fun l listed same => ?_
  obtain ⟨f, there, rfl⟩ := List.mem_map.mp listed
  exact bare f (same ▸ Module.function?_of_mem distinct there)

variable {ls : List Label} {carried : List Attachment} {state : Module × Outcome}

theorem eraseDoomed_labels (merged source : SymbolId) (distinct : state.1.symbolIds.Nodup) (doomed : Function) :
    (eraseDoomed merged source state doomed).1.labels = state.1.labels.filter (·.id ≠ doomed.id) ∨
      (eraseDoomed merged source state doomed).1.labels =
        if doomed.id = source then state.1.labels.map (Label.strip merged) else state.1.labels := by
  obtain ⟨n, o⟩ := state
  unfold eraseDoomed
  dsimp only
  split
  · next k removed =>
    obtain ⟨rfl, _⟩ := Module.removeFunction?_eq removed
    exact .inl (dropFunction_labels n doomed.id)
  · right
    by_cases own : doomed.id = source
    · rw [if_pos own, if_pos own]
      cases found : n.function? merged with
      | none => exact (strip_labels_of_bare distinct fun f there => nomatch found.symm.trans there).symm
      | some f =>
        obtain ⟨listed, rfl⟩ := function?_mem found
        rw [Option.bind_some]
        cases detached : f.detachSubprogram? with
        | some g => exact setFunction_strip distinct listed (detachSubprogram?_label detached)
        | none =>
          refine (strip_labels_of_bare distinct fun h there => ?_).symm
          obtain rfl := Option.some.inj (found.symm.trans there)
          exact detachSubprogram?_none detached
    · rw [if_neg own, if_neg own]

theorem eraseDoomed_spread (source : SymbolId) (distinct : state.1.symbolIds.Nodup)
    (spread : Label.Spread ls merged carried state.1.labels) (doomed : Function) :
    Label.Spread ls merged carried (eraseDoomed merged source state doomed).1.labels := by
  rcases eraseDoomed_labels merged source distinct doomed with erased | kept
  · rw [erased]
    exact spread.filter _
  · rw [kept]
    split
    · exact spread.strip
    · exact spread

theorem eraseDoomed_foldl_spread (source : SymbolId) (chain : List Function) (distinct : state.1.symbolIds.Nodup)
    (spread : Label.Spread ls merged carried state.1.labels) :
    Label.Spread ls merged carried (chain.foldl (eraseDoomed merged source) state).1.labels := by
  induction chain generalizing state with
  | nil => exact spread
  | cons doomed chain ih =>
    exact ih (eraseDoomed_pared distinct merged source doomed).1.distinct (eraseDoomed_spread source distinct spread doomed)

theorem eraseDoomed_settled (distinct : state.1.symbolIds.Nodup) (spread : Label.Spread ls merged carried state.1.labels)
    (few : carried.length ≤ 1) {l : Label} (listed : l ∈ (eraseDoomed merged doomed.id state doomed).1.labels)
    (same : l.id = merged) :
    l.subprograms = [] ∨ doomed.id ∉ (eraseDoomed merged doomed.id state doomed).1.labels.map (·.id) := by
  rcases eraseDoomed_labels merged doomed.id distinct doomed with erased | kept
  · right
    rw [erased]
    intro present
    obtain ⟨k, stays, equal⟩ := List.mem_map.mp present
    exact absurd equal (by simpa using (List.mem_filter.mp stays).2)
  · left
    rw [kept, if_pos rfl] at listed
    obtain ⟨k, there, rfl⟩ := List.mem_map.mp listed
    rw [Label.strip_id] at same
    have short : k.subprograms.length ≤ 1 := (spread.clone k there same).length_le.trans few
    subst same
    rw [Label.strip_self]
    exact List.eq_nil_of_length_eq_zero (by rw [List.length_tail]; omega)

theorem eraseDoomed_foldl_keeps (merged : SymbolId) (chain : List Function) (distinct : state.1.symbolIds.Nodup)
    (ahead : ∀ doomed ∈ chain, doomed.id ≠ source) {l : Label} (listed : l ∈ state.1.labels)
    (other : ∀ doomed ∈ chain, l.id ≠ doomed.id) : l ∈ (chain.foldl (eraseDoomed merged source) state).1.labels := by
  induction chain generalizing state with
  | nil => exact listed
  | cons doomed chain ih =>
    have kept : l ∈ (eraseDoomed merged source state doomed).1.labels := by
      rcases eraseDoomed_labels merged source distinct doomed with erased | same
      · rw [erased]
        exact List.mem_filter.mpr ⟨listed, by simpa using other doomed (.head _)⟩
      · rw [same, if_neg (ahead doomed (.head _))]
        exact listed
    exact ih (eraseDoomed_pared distinct merged source doomed).1.distinct (fun x later => ahead x (.tail _ later)) kept
      fun x later => other x (.tail _ later)

/-- Of a source and a copy that carries as much, exactly one carries it once the source's turn is over. -/
theorem eraseDoomed_source (distinct : state.1.symbolIds.Nodup) {l : Label} (copy : l ∈ state.1.labels)
    (original : doomed.label ∈ state.1.labels) (other : l.id ≠ doomed.id) (few : l.subprograms.length ≤ 1) :
    ∃ clone ∈ (eraseDoomed l.id doomed.id state doomed).1.functions, clone.id = l.id ∧ clone.name = l.name ∧
      clone.subprograms =
        if doomed.id ∈ (eraseDoomed l.id doomed.id state doomed).1.functionIds then [] else l.subprograms := by
  rcases eraseDoomed_labels l.id doomed.id distinct doomed with erased | kept
  · have gone : doomed.id ∉ (eraseDoomed l.id doomed.id state doomed).1.functionIds := by
      rw [← labels_ids, erased]
      intro present
      obtain ⟨k, stays, equal⟩ := List.mem_map.mp present
      exact absurd equal (by simpa using (List.mem_filter.mp stays).2)
    have stays : l ∈ (eraseDoomed l.id doomed.id state doomed).1.labels := by
      rw [erased]
      exact List.mem_filter.mpr ⟨copy, by simpa using other⟩
    obtain ⟨clone, there, rfl⟩ := List.mem_map.mp stays
    rw [if_neg gone]
    exact ⟨clone, there, rfl, rfl, rfl⟩
  · rw [if_pos rfl] at kept
    have present : doomed.id ∈ (eraseDoomed l.id doomed.id state doomed).1.functionIds := by
      rw [← labels_ids, kept]
      exact List.mem_map.mpr ⟨_, List.mem_map.mpr ⟨_, original, rfl⟩, Label.strip_id _ _⟩
    have stays : l.strip l.id ∈ (eraseDoomed l.id doomed.id state doomed).1.labels := by
      rw [kept]
      exact List.mem_map.mpr ⟨l, copy, rfl⟩
    have none : l.subprograms.tail = [] := List.eq_nil_of_length_eq_zero (by rw [List.length_tail]; omega)
    rw [Label.strip_self, none] at stays
    obtain ⟨clone, there, same⟩ := List.mem_map.mp stays
    rw [if_pos present]
    exact ⟨clone, there, congrArg Label.id same, congrArg Label.name same, congrArg Label.subprograms same⟩

end

/-! ### A merge -/

theorem copyParamAttrs_label (stub f : Function) (pos : Int) (i : Nat) : (Function.copyParamAttrs stub f pos i).label = f.label := by
  unfold Function.copyParamAttrs
  dsimp only
  split
  · rfl
  · split <;> rfl

theorem copyCallAttributes_label (f stub : Function) (positions : List Int) :
    (f.copyCallAttributes stub positions).label = f.label := by
  have each : ∀ (chosen : List (Int × Nat)) (g : Function),
      (chosen.foldl (fun g e => Function.copyParamAttrs stub g e.1 e.2) g).label = g.label := by
    intro chosen
    induction chosen with
    | nil => exact fun g => rfl
    | cons e chosen ih => exact fun g => (ih _).trans (copyParamAttrs_label stub g e.1 e.2)
  exact each _ _

section

variable {plan : MergePlan} {m : Module} {merged : String} {p : Profile}

theorem target_label (checked : plan.Checked merged m) (p : Profile) :
    (plan.target p m).label = ⟨m.freshSymbol, plan.clone.name, plan.source.subprograms⟩ := by
  have same : (plan.target p m).label = plan.clone.label := by
    unfold MergePlan.target
    split
    · exact copyCallAttributes_label _ _ _
    · rfl
  have carried : plan.clone.subprograms = plan.source.subprograms := by
    obtain ⟨_, form⟩ := Function.withSignature_ok checked.cloned
    rw [form]
    rfl
  rw [same, ← Function.withSignature_id checked.cloned, ← carried]
  rfl

theorem elideMarshalling_labels {k : Module} (coherent : k.Coherent) {f : Function} (listed : f ∈ k.functions)
    {marshalling : Option MarshallingPlan} (fits : ∀ e, marshalling = some e → e.Fits f) (name : String) (o : Outcome) :
    (elideMarshalling name marshalling (k, o)).1.symbolIds.Nodup ∧
      ∃ extra, (elideMarshalling name marshalling (k, o)).1.labels = k.labels ++ extra ∧ ∀ l ∈ extra, l.subprograms = [] := by
  cases marshalling with
  | none => exact ⟨coherent.distinct, [], (List.append_nil _).symm, List.forall_mem_nil _⟩
  | some e =>
    unfold elideMarshalling
    dsimp only
    rcases apply_cases coherent listed (fits e rfl) with
      ⟨fault, refused, applied⟩ | ⟨n, copy, g, count, failed, declared, applied, reworked, _, _⟩
    · rw [applied]
      exact ⟨coherent.distinct, [], (List.append_nil _).symm, List.forall_mem_nil _⟩
    · rw [applied]
      obtain ⟨later, kept⟩ := declareCopy_coherent coherent declared
      dsimp only
      rw [Module.symbolIds_setFunction, setFunction_labels later.distinct (kept f listed) (label_of_frame reworked.frame)]
      refine ⟨later.distinct, ?_⟩
      rcases declareCopy_cases declared with ⟨rfl, _⟩ | ⟨rfl, rfl, _⟩
      · exact ⟨[], (List.append_nil _).symm, List.forall_mem_nil _⟩
      · exact ⟨[_], addFunction_labels k _, List.forall_mem_singleton.mpr rfl⟩

theorem MergePlan.Checked.copied (checked : plan.Checked merged m) (coherent : m.Coherent) (p : Profile) (callee : String) :
    ∃ state extra, state.1.symbolIds.Nodup ∧
      state.1.labels = m.labels ++ ⟨m.freshSymbol, plan.clone.name, plan.source.subprograms⟩ :: extra ∧
      (∀ l ∈ extra, l.subprograms = []) ∧
      commitMerge p callee plan m =
        (entryChain p callee plan.source state.1).foldl (eraseDoomed m.freshSymbol plan.source.id) state := by
  obtain ⟨g, redirected, replaced, after, listed⟩ := checked.redirected coherent p
  have target := target_label checked p
  have number : (plan.target p m).id = m.freshSymbol := checked.target_id p
  have fits : ∀ e, plan.marshalling = some e → e.Fits (plan.target p m) :=
    fun e planned => (checked.marshalling e planned).of_same (plan.target_same p m)
  obtain ⟨distinct, extra, labels, bare⟩ := elideMarshalling_labels after listed fits (plan.target p m).name plan.begun
  have caller : plan.rpc.caller ∈ (m.addFunction (plan.target p m)).functions :=
    List.mem_append_left _ checked.replaceable.caller
  have before : (m.addFunction (plan.target p m)).symbolIds.Nodup := (checked.target_coherent coherent p).distinct
  refine ⟨_, extra, distinct, ?_, bare, ?_⟩
  · rw [labels, setFunction_labels before caller (label_of_frame redirected.frame), addFunction_labels, target, List.append_assoc]
    rfl
  · rw [commitMerge_of_replaced replaced, number]

theorem entryChain_ahead (p : Profile) (callee : String) (source : Function) (n : Module) :
    ∃ ahead, entryChain p callee source n = ahead ++ [source] ∧ ∀ doomed ∈ ahead, doomed ∈ n.functions ∧
      (doomed.name = p.entryName callee ∨ p.runtimeStartName? callee = some doomed.name) := by
  refine ⟨_, rfl, fun doomed listed => ?_⟩
  rcases List.mem_append.mp listed with entry | start
  · obtain ⟨there, called⟩ := findFunction_mem (Option.mem_toList.mp entry)
    exact ⟨there, .inl called⟩
  · obtain ⟨name, given, found⟩ := Option.bind_eq_some_iff.mp (Option.mem_toList.mp start)
    obtain ⟨there, called⟩ := findFunction_mem found
    exact ⟨there, .inr (called ▸ given)⟩

theorem Label.Spread.start {ls extra : List Label} {l : Label} (distinct : ((ls ++ l :: extra).map (·.id)).Nodup) :
    Label.Spread (ls ++ extra) l.id l.subprograms (ls ++ l :: extra) := by
  refine ⟨distinct, ?_, fun k listed same => ?_⟩
  · rw [List.filter_append, List.filter_cons_of_neg (by simp)]
    exact List.filter_sublist.append List.filter_sublist
  · have here : l ∈ ls ++ l :: extra := List.mem_append_right _ (.head _)
    rw [List.inj_on_of_nodup_map distinct listed here same]

/-- After a merge no function carries more subprograms than it may, and none that is carried elsewhere. -/
theorem MergePlan.Checked.undoubled (checked : plan.Checked merged m) (coherent : m.Coherent)
    (single : ∀ f ∈ m.functions, f.subprograms.length ≤ 1) (p : Profile) (callee : String) :
    Undoubled m (commitMerge p callee plan m).1 := by
  obtain ⟨state, extra, distinct, labels, bare, committed⟩ := checked.copied coherent p callee
  have ids : (state.1.labels.map (·.id)).Nodup := by
    rw [labels_ids]
    exact distinct.of_append_left
  have started := labels ▸ Label.Spread.start (labels ▸ ids)
  have source : plan.source.label ∈ m.labels ++ extra := List.mem_append_left _ (List.mem_map.mpr ⟨_, checked.source, rfl⟩)
  have few : ∀ l ∈ m.labels ++ extra, l.subprograms.length ≤ 1 := by
    intro l listed
    rcases List.mem_append.mp listed with old | new
    · obtain ⟨f, there, rfl⟩ := List.mem_map.mp old
      exact single f there
    · rw [bare l new]
      exact Nat.zero_le 1
  have fewer : plan.source.subprograms.length ≤ 1 := single _ checked.source
  have apart : ((m.labels ++ extra).map (·.id)).Nodup := by
    rw [labels] at ids
    exact ids.sublist (((List.sublist_cons_self _ _).append_left _).map _)
  -- The source comes last in its chain, and its turn settles which of the two is described.
  obtain ⟨ahead, chain, _⟩ := entryChain_ahead p callee plan.source state.1
  rw [committed, chain, List.foldl_append]
  have before := (eraseDoomed_foldl_pared ahead distinct m.freshSymbol plan.source.id).1.distinct
  have spread := eraseDoomed_foldl_spread plan.source.id ahead distinct started
  have after := eraseDoomed_spread plan.source.id before spread plan.source
  refine ⟨fun f listed => ?_, ?_⟩
  · exact after.single few fewer f.label (List.mem_map.mpr ⟨f, listed, rfl⟩)
  · have whole := after.subperm apart source rfl fun l => eraseDoomed_settled before spread fewer
    rw [labels_subprograms, List.flatMap_append, List.flatMap_eq_nil_iff.mpr bare, List.append_nil, labels_subprograms] at whole
    exact whole

/-- Of a source and its copy exactly one is described in the end, where the rest of the entry chain goes by other names. -/
theorem MergePlan.Checked.one_described (checked : plan.Checked merged m) (coherent : m.Coherent) (p : Profile) (callee : String)
    (few : plan.source.subprograms.length ≤ 1)
    (apart : ∀ name, name = p.entryName callee ∨ p.runtimeStartName? callee = some name →
      name ≠ plan.source.name ∧ name ≠ plan.clone.name) :
    ∃ clone ∈ (commitMerge p callee plan m).1.functions, clone.id = m.freshSymbol ∧ clone.name = plan.clone.name ∧
      clone.subprograms =
        if plan.source.id ∈ (commitMerge p callee plan m).1.functionIds then [] else plan.source.subprograms := by
  obtain ⟨state, extra, distinct, labels, _, committed⟩ := checked.copied coherent p callee
  obtain ⟨ahead, chain, named⟩ := entryChain_ahead p callee plan.source state.1
  have ids : (state.1.labels.map (·.id)).Nodup := by
    rw [labels_ids]
    exact distinct.of_append_left
  have original : plan.source.label ∈ state.1.labels := by
    rw [labels]
    exact List.mem_append_left _ (List.mem_map.mpr ⟨_, checked.source, rfl⟩)
  have copy : ⟨m.freshSymbol, plan.clone.name, plan.source.subprograms⟩ ∈ state.1.labels := by
    rw [labels]
    exact List.mem_append_right _ (.head _)
  have fresh : m.freshSymbol ≠ plan.source.id := by
    intro same
    have known : plan.source.id ∈ m.symbolIds := List.mem_append_left _ (List.mem_map.mpr ⟨_, checked.source, rfl⟩)
    exact m.freshSymbol_not_mem (same ▸ known)
  -- What else is in the chain is found by another name, so it is another function.
  have other : ∀ l ∈ state.1.labels, l.name = plan.source.name ∨ l.name = plan.clone.name →
      ∀ doomed ∈ ahead, l.id ≠ doomed.id := by
    intro l listed called doomed chosen same
    obtain ⟨there, found⟩ := named doomed chosen
    obtain rfl : l = doomed.label := List.inj_on_of_nodup_map ids listed (List.mem_map.mpr ⟨_, there, rfl⟩) same
    exact called.elim (apart _ found).1 (apart _ found).2
  have spared : ∀ doomed ∈ ahead, doomed.id ≠ plan.source.id :=
    fun doomed chosen => (other _ original (.inl rfl) doomed chosen).symm
  have before := (eraseDoomed_foldl_pared ahead distinct m.freshSymbol plan.source.id).1.distinct
  have original := eraseDoomed_foldl_keeps m.freshSymbol ahead distinct spared original
    (other _ original (.inl rfl))
  have copy := eraseDoomed_foldl_keeps m.freshSymbol ahead distinct spared copy (other _ copy (.inr rfl))
  rw [committed, chain, List.foldl_append]
  exact eraseDoomed_source before copy original fresh few

end

/-! ### A run -/

section

variable {σ : Type} {m : Module}

theorem undoubled_of_same {n : Module} (single : ∀ f ∈ m.functions, f.subprograms.length ≤ 1)
    (same : n.functions.map (·.subprograms) = m.functions.map (·.subprograms)) : Undoubled m n where
  single := by
    intro f listed
    have carried : f.subprograms ∈ m.functions.map (·.subprograms) := same ▸ List.mem_map.mpr ⟨f, listed, rfl⟩
    obtain ⟨g, there, equal⟩ := List.mem_map.mp carried
    exact equal ▸ single g there
  among := by
    rw [Module.subprograms, Module.subprograms, List.flatMap_def, List.flatMap_def, same]

theorem undoubled_refl (single : ∀ f ∈ m.functions, f.subprograms.length ≤ 1) : Undoubled m m := undoubled_of_same single rfl

theorem Renaming.run_undoubled (single : ∀ f ∈ m.functions, f.subprograms.length ≤ 1) (r : Renaming) (mode : Mode)
    (found : Diagnostics) : Undoubled m (r.run mode found m).1 := by
  unfold run
  split
  · exact undoubled_refl single
  · refine undoubled_of_same single ?_
    simp only [applyTo, List.map_map]
    rfl

theorem renameCaller_undoubled (single : ∀ f ∈ m.functions, f.subprograms.length ≤ 1) (caller : String) :
    Undoubled m (renameCaller caller m).1 := by
  unfold renameCaller
  split
  · exact undoubled_refl single
  · exact Renaming.run_undoubled single _ _ _

theorem renameCallee_undoubled (single : ∀ f ∈ m.functions, f.subprograms.length ≤ 1) (p : Profile) (callee : String) :
    Undoubled m (renameCallee p callee m).1 := by
  unfold renameCallee
  dsimp only
  split
  · exact undoubled_refl single
  · split
    · exact undoubled_refl single
    · split
      · exact undoubled_refl single
      · exact Renaming.run_undoubled single _ _ _

theorem mergeExisting_undoubled (coherent : m.Coherent) (single : ∀ f ∈ m.functions, f.subprograms.length ≤ 1)
    (bridge : Bridge σ) (mode : Mode) (p : Profile) (caller callee : String) (l : Locator σ) :
    Undoubled m ((mergeExisting bridge mode p caller callee m).run l).1.1 := by
  rw [mergeExisting, run_bind]
  cases found : ((findRedirection bridge mode p caller callee m).run l).1 with
  | error d => exact undoubled_refl single
  | ok r =>
    have replaceable := (findRedirection_checked found).replaceable
    obtain ⟨g, replaced, redirected⟩ := replaceable.redirected (coherent.functions _ replaceable.caller) m
    simp only [replaced]
    refine undoubled_of_same single ?_
    have labels := setFunction_labels coherent.distinct replaceable.caller (label_of_frame redirected.frame)
    have carried := congrArg (List.map Label.subprograms) labels
    rw [Module.labels, Module.labels, List.map_map, List.map_map] at carried
    exact carried

theorem mergeCallee_undoubled (coherent : m.Coherent) (single : ∀ f ∈ m.functions, f.subprograms.length ≤ 1)
    (bridge : Bridge σ) (p : Profile) (caller callee : String) (l : Locator σ) :
    Undoubled m ((mergeCallee bridge p caller callee m).run l).1.1 := by
  rw [mergeCallee, run_bind]
  cases planned : ((planMerge bridge p caller callee m).run l).1 with
  | error d => exact undoubled_refl single
  | ok plan => exact (planMerge_checked planned).undoubled coherent single p callee

theorem runMode_undoubled (coherent : m.Coherent) (single : ∀ f ∈ m.functions, f.subprograms.length ≤ 1)
    (bridge : Bridge σ) (o : Options) (l : Locator σ) : Undoubled m ((runMode bridge o m).run l).1.1 := by
  unfold runMode
  dsimp only
  split
  · exact renameCaller_undoubled single o.caller
  · exact renameCallee_undoubled single o.effectiveProfile o.callee
  · exact mergeCallee_undoubled coherent single bridge o.effectiveProfile o.caller o.callee l
  · exact mergeExisting_undoubled coherent single bridge .mergeExisting o.effectiveProfile o.caller o.callee l
  · exact mergeExisting_undoubled coherent single bridge .replaceStub o.effectiveProfile o.caller o.callee l
  · exact undoubled_refl single

theorem planMerge_source {bridge : Bridge σ} {p : Profile} {caller callee : String} {l l' : Locator σ} {plan : MergePlan}
    (planned : (planMerge bridge p caller callee m).run l = (.ok plan, l')) :
    m.findFunction (p.realCalleeName callee) = some plan.source := by
  rw [planMerge] at planned
  split at planned
  · cases planned
  · split at planned
    · cases planned
    · extract_lets name at planned
      split at planned
      · cases planned
      · next source known =>
        rw [known]
        split at planned
        · cases planned
        · rw [run_bind] at planned
          split at planned
          · cases planned
          · split at planned
            · cases planned
            · split at planned
              · cases planned
              · split at planned
                · cases planned
                · rw [run_bind] at planned
                  cases planned
                  rfl

theorem Profile.Registered.chain_apart {p : Profile} (registered : p.Registered) (callee : String) {name : String}
    (given : name = p.entryName callee ∨ p.runtimeStartName? callee = some name) :
    name ≠ p.realCalleeName callee ∧ name ≠ p.mergedCalleeName callee := by
  have listed : name ∈ p.givenNames callee := by
    rcases given with rfl | start
    · simp [Profile.givenNames]
    · simp [Profile.givenNames, start]
  refine ⟨?_, ((registered.names_apart callee).2 name listed).1.symm⟩
  obtain ⟨payload, rfl | rfl⟩ := registered
  · obtain rfl : name = "main_for_" ++ callee := by
      simpa [entryName, runtimeStartName?, go] using given
    simp [realCalleeName, go, String.ext_iff]
  · have either : name = "main_callee_rust_" ++ callee ∨ name = "_std_rt_lang_start_callee_" ++ callee := by
      refine given.imp id fun start => ?_
      have start : "_std_rt_lang_start_callee_" ++ callee = name := by simpa [runtimeStartName?, rust] using start
      exact start.symm
    rcases either with rfl | rfl <;> simp [realCalleeName, rust, String.ext_iff]

/-- A debug subprogram does not come to describe two functions: whatever a run does, no function carries two, and none
carries one that another function carried and still carries. Of a function that was merged and its merged copy exactly one
carries it, the copy if the other was erased. -/
theorem subprogram_describes_one (bridge : Bridge σ) (state : σ) (o : Options) (coherent : m.Coherent)
    (single : ∀ f ∈ m.functions, f.subprograms.length ≤ 1) :
    (∀ f ∈ (run bridge state o m).1.1.functions, f.subprograms.length ≤ 1) ∧
    (run bridge state o m).1.1.subprograms.Subperm m.subprograms ∧
    (m.subprograms.Nodup → (run bridge state o m).1.1.subprograms.Nodup) ∧
    (o.mode = .mergeCallee → (run bridge state o m).1.2.changed = true →
      ∃ source, m.findFunction (o.effectiveProfile.realCalleeName o.callee) = some source ∧
        ∃ clone ∈ (run bridge state o m).1.1.functions, clone.id ∉ m.functionIds ∧
          clone.name = o.effectiveProfile.mergedCalleeName o.callee ∧
          clone.subprograms = if source.id ∈ (run bridge state o m).1.1.functionIds then [] else source.subprograms) := by
  have kept : Undoubled m (run bridge state o m).1.1 := runMode_undoubled coherent single bridge o _
  refine ⟨kept.single, kept.among, fun distinct => ?_, fun mode changed => ?_⟩
  · obtain ⟨part, same, listed⟩ := kept.among
    exact same.nodup_iff.mp (distinct.sublist listed)
  · obtain ⟨plan, l, found⟩ := exists_plan_of_changed mode changed
    obtain ⟨checked, _⟩ := planMerge_found found
    obtain ⟨module, _⟩ := run_of_found mode found
    have known := o.registered
    have source := planMerge_source found
    have named : plan.clone.name = o.effectiveProfile.mergedCalleeName o.callee :=
      checked.clone_name.trans (known.merged_shown o.callee)
    obtain ⟨clone, there, number, name, carried⟩ := checked.one_described coherent o.effectiveProfile o.callee
      (single _ checked.source) fun name given => by
        rw [(findFunction_mem source).2, named]
        exact known.chain_apart o.callee given
    rw [module]
    refine ⟨plan.source, source, clone, there, ?_, name.trans named, carried⟩
    rw [number]
    exact fun present => m.freshSymbol_not_mem (List.mem_append_left _ present)

end

namespace Halves

/-- The callee with a debug subprogram. -/
def described : Function := { source with attachments := [⟨"dbg", .ref 0⟩] }

def describedProgram : Module where
  functions := [stub, send, copier 64, described, caller]

theorem described_same : source.SameBody described := ⟨⟨rfl, rfl, rfl, rfl, rfl, rfl, rfl⟩, rfl, rfl⟩

theorem describedProgram_findFunction (name : String) : describedProgram.findFunction name =
    if name = "main.make__rpc" then some stub
    else if name = "main.send__return__value__to__caller" then some send
    else if name = "llvm.memcpy.p0i8.p0i8.i64" then some (copier 64)
    else if name = "main_2nd_for_b" then some described
    else if name = "main.main" then some caller
    else none := by
  have described_name : described.name = "main_2nd_for_b" := described_same.name.trans source_name
  simp only [Module.findFunction, describedProgram, List.find?_cons, List.find?_nil, stub_name, send_name, copier_name,
    described_name, caller_name]
  grind

theorem describedProgram_coherent : describedProgram.Coherent where
  distinct := by
    change List.Nodup [SymbolId.mk 1, ⟨2⟩, ⟨3⟩, ⟨4⟩, ⟨5⟩]
    decide
  functions := by
    have callee : described.Coherent := (described_same.wellFormed (calling_wellFormed _ _ _)).toCoherent
    simp only [describedProgram, List.forall_mem_cons]
    exact ⟨(outside_wellFormed _ _ _).toCoherent, (outside_wellFormed _ _ _).toCoherent,
      (outside_wellFormed _ _ _).toCoherent, callee, (calling_wellFormed _ _ _).toCoherent, List.forall_mem_nil _⟩

theorem describedProgram_changed : (run Bridge.inProcess () merging describedProgram).1.2.changed = true := by
  have present : describedProgram.findFunction (Profile.go.realCalleeName "b") = some described := by
    simp [describedProgram_findFunction, Profile.realCalleeName, Profile.go]
  have fresh : describedProgram.findFunction (Profile.go.mergedCalleeName "b") = none := by
    simp [describedProgram_findFunction, Profile.mergedCalleeName, Profile.go]
  have located := findRpc_of_caller (m := describedProgram) (by simp [describedProgram_findFunction])
    (by simp [describedProgram_findFunction]) (by simp [describedProgram_findFunction])
    (by simp [describedProgram_findFunction]) rfl
  have planned := planMerge_ok ⟨by decide, by decide⟩ present fresh located rfl rfl rfl
  exact (run_of_found (o := merging) rfl (Prod.ext planned rfl)).2.1

end Halves

theorem halves_described_once :
    Halves.describedProgram.subprograms = [⟨"dbg", .ref 0⟩] ∧
    (∀ f ∈ Halves.describedProgram.functions, f.subprograms.length ≤ 1) ∧
    (run Bridge.inProcess () Halves.merging Halves.describedProgram).1.2.changed = true ∧
    (run Bridge.inProcess () Halves.merging Halves.describedProgram).1.1.subprograms.Subperm [⟨"dbg", .ref 0⟩] ∧
    ∃ clone ∈ (run Bridge.inProcess () Halves.merging Halves.describedProgram).1.1.functions,
      clone.name = "NewCallee_b" ∧ clone.subprograms =
        if Halves.described.id ∈ (run Bridge.inProcess () Halves.merging Halves.describedProgram).1.1.functionIds then []
        else [⟨"dbg", .ref 0⟩] := by
  have single : ∀ f ∈ Halves.describedProgram.functions, f.subprograms.length ≤ 1 := by
    simp only [Halves.describedProgram, List.forall_mem_cons]
    exact ⟨Nat.zero_le 1, Nat.zero_le 1, Nat.zero_le 1, Nat.le_refl 1, Nat.zero_le 1, nofun⟩
  have changed := Halves.describedProgram_changed
  obtain ⟨_, among, _, merged⟩ :=
    subprogram_describes_one Bridge.inProcess () Halves.merging Halves.describedProgram_coherent single
  obtain ⟨source, found, clone, there, _, name, carried⟩ := merged rfl changed
  have callee : Halves.describedProgram.findFunction (Halves.merging.effectiveProfile.realCalleeName "b") =
      some Halves.described := by
    simp [Halves.describedProgram_findFunction, Profile.realCalleeName, Halves.merging, Options.effectiveProfile, Profile.go]
  obtain rfl := Option.some.inj (found.symm.trans callee)
  exact ⟨rfl, single, changed, among, clone, there, name, carried⟩

end CallFusion
