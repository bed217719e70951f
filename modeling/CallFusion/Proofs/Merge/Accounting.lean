import CallFusion.Proofs.Merge.Leftovers
import CallFusion.Proofs.Merge.Renaming

/-!
What a merge does to a module, function by function. Those that were there stay in their order, less the erased ones
of the entry chain and with the caller edited; the merged function comes behind them, and behind that the copy
intrinsic where it was missing. The counters of the outcome count exactly these edits.
-/

namespace CallFusion

open Ir

def Ir.Module.functionIds (m : Module) : List SymbolId := m.functions.map (·.id)

/-- The functions of other numbers than the given ones. -/
def without (gone : List SymbolId) (fs : List Function) : List Function := fs.filter (·.id ∉ gone)

@[simp] theorem without_nil (fs : List Function) : without [] fs = fs := by simp [without]

theorem without_append (gone gone' : List SymbolId) (fs : List Function) :
    without (gone ++ gone') fs = without gone' (without gone fs) := by
  rw [without, without, without, List.filter_filter]
  congr 1
  funext f
  simp [Bool.and_comm]

/-- A module that differs from another in its functions: the given ones, a merged one behind them, and what was added last. -/
structure Laid (m : Module) (fs : List Function) (merged : Function) (added : List Function) (n : Module) : Prop where
  rest : n = { m with functions := n.functions, dropped := n.dropped }
  functions : n.functions = fs ++ merged :: added

namespace Laid

variable {m n : Module} {fs added : List Function} {f g merged : Function}

theorem apart (laid : Laid m fs merged added n) (distinct : n.symbolIds.Nodup) :
    (∀ f ∈ fs, ∀ g ∈ merged :: added, f.id ≠ g.id) ∧ ∀ f ∈ added, f.id ≠ merged.id := by
  have ids : (n.functions.map (·.id)).Nodup := distinct.of_append_left
  rw [laid.functions, List.map_append, List.nodup_append, List.map_cons, List.nodup_cons] at ids
  obtain ⟨_, ⟨last, _⟩, ahead⟩ := ids
  refine ⟨fun f first g second => ?_, fun f listed same => last (same ▸ List.mem_map.mpr ⟨f, listed, rfl⟩)⟩
  exact ahead f.id (List.mem_map.mpr ⟨f, first, rfl⟩) g.id (List.mem_map.mpr ⟨g, second, rfl⟩)

theorem setMerged (laid : Laid m fs merged added n) (distinct : n.symbolIds.Nodup) (same : g.id = merged.id) :
    Laid m fs g added (n.setFunction g) where
  rest := by
    rw [laid.rest]
    rfl
  functions := by
    obtain ⟨ahead, behind⟩ := laid.apart distinct
    have kept : ∀ gs : List Function, (∀ f ∈ gs, f.id ≠ g.id) → gs.map (fun f => if f.id == g.id then g else f) = gs :=
      fun gs other => (List.map_congr_left fun f listed => if_neg (by simpa using other f listed)).trans (List.map_id' gs)
    simp only [Module.setFunction, laid.functions, List.map_append, List.map_cons]
    rw [kept fs fun f listed => same ▸ ahead f listed merged List.mem_cons_self, kept added fun f listed => same ▸ behind f listed,
      if_pos (by simp [same])]

theorem addFunction (laid : Laid m fs merged added n) (f : Function) : Laid m fs merged (added ++ [f]) (n.addFunction f) where
  rest := by
    rw [laid.rest]
    rfl
  functions := by
    rw [Module.addFunction, laid.functions, List.append_assoc, List.cons_append]

theorem dropFunction (laid : Laid m fs merged added n) {id : SymbolId} (other : ∀ f ∈ merged :: added, f.id ≠ id) :
    Laid m (without [id] fs) merged added (n.dropFunction id) where
  rest := by
    rw [laid.rest]
    rfl
  functions := by
    have kept : (merged :: added).filter (·.id != id) = merged :: added :=
      List.filter_eq_self.mpr fun f listed => by simpa using other f listed
    have same : without [id] fs = fs.filter (·.id != id) := by
      rw [without]
      congr 1
      funext f
      rw [Bool.eq_iff_iff]
      simp
    rw [Module.dropFunction, laid.functions, List.filter_append, kept, same]

end Laid

/-- Only functions went away on the way from one state to the other, and each was counted as erased. -/
structure Tallied (s t : Module × Outcome) : Prop where
  others : t.2.stats = { s.2.stats with erased := t.2.stats.erased }
  total : t.2.stats.erased + t.1.functions.length = s.2.stats.erased + s.1.functions.length

theorem Tallied.trans {s t u : Module × Outcome} (first : Tallied s t) (second : Tallied t u) : Tallied s u where
  others := by
    rw [second.others, first.others]
  total := second.total.trans first.total

theorem eraseDoomed_laid {m n : Module} {fs added : List Function} {merged doomed : Function} {o : Outcome}
    (laid : Laid m fs merged added n) (distinct : n.symbolIds.Nodup) (other : ∀ f ∈ merged :: added, f.id ≠ doomed.id)
    (source : SymbolId) :
    Tallied (n, o) (eraseDoomed merged.id source (n, o) doomed) ∧ ∃ gone merged', gone ⊆ [doomed.id] ∧ merged.SameBody merged' ∧
      Laid m (without gone fs) merged' added (eraseDoomed merged.id source (n, o) doomed).1 := by
  unfold eraseDoomed
  dsimp only
  split
  · next k removed =>
    obtain ⟨f, listed, same⟩ := Module.removeFunction?_present removed
    obtain ⟨rfl, _⟩ := Module.removeFunction?_eq removed
    have fewer := same ▸ Module.dropFunction_length distinct listed
    refine ⟨⟨rfl, ?_⟩, [doomed.id], merged, List.Subset.refl _, .refl merged, laid.dropFunction other⟩
    dsimp only
    omega
  · split
    · next g detached =>
      split at detached
      · obtain ⟨f, found, given⟩ := Option.bind_eq_some_iff.mp detached
        have there : merged ∈ n.functions := by
          rw [laid.functions]
          exact List.mem_append_right _ List.mem_cons_self
        obtain ⟨listed, same⟩ := function?_mem found
        obtain rfl : f = merged := Module.function_eq_of_id distinct listed there same
        have body := Function.detachSubprogram?_same given
        refine ⟨⟨rfl, ?_⟩, [], g, List.nil_subset _, body, ?_⟩
        · simp [Module.setFunction]
        · rw [without_nil]
          exact laid.setMerged distinct body.id
      · cases detached
    · exact ⟨⟨rfl, rfl⟩, [], merged, List.nil_subset _, .refl merged, (without_nil fs).symm ▸ laid⟩

theorem eraseDoomed_foldl_laid (chain : List Function) {m : Module} {fs added : List Function} {merged : Function}
    {state : Module × Outcome} (laid : Laid m fs merged added state.1) (distinct : state.1.symbolIds.Nodup)
    (other : ∀ doomed ∈ chain, ∀ f ∈ merged :: added, f.id ≠ doomed.id) (source : SymbolId) :
    Tallied state (chain.foldl (eraseDoomed merged.id source) state) ∧
      ∃ gone merged', gone ⊆ chain.map (·.id) ∧ merged.SameBody merged' ∧
        Laid m (without gone fs) merged' added (chain.foldl (eraseDoomed merged.id source) state).1 := by
  induction chain generalizing state fs merged with
  | nil =>
    refine ⟨⟨rfl, rfl⟩, [], merged, List.nil_subset _, .refl merged, ?_⟩
    simpa using laid
  | cons doomed chain ih =>
    obtain ⟨counted, gone, middle, erased, body, between⟩ :=
      eraseDoomed_laid (o := state.2) laid distinct (other doomed List.mem_cons_self) source
    have step := (eraseDoomed_pared distinct merged.id source doomed).1.distinct
    -- The merged function may have lost its debug subprogram on the way, but it has the number it had.
    have spared : ∀ doomed ∈ chain, ∀ f ∈ middle :: added, f.id ≠ doomed.id := by
      intro next listed f behind
      rcases List.mem_cons.mp behind with rfl | last
      · rw [body.id]
        exact other next (List.mem_cons_of_mem _ listed) merged List.mem_cons_self
      · exact other next (List.mem_cons_of_mem _ listed) f (List.mem_cons_of_mem _ last)
    obtain ⟨later, gone', last, erased', body', done⟩ := ih between step spared
    rw [body.id] at later done
    refine ⟨counted.trans later, gone ++ gone', last, ?_, body.trans body', ?_⟩
    · rw [List.map_cons, ← List.singleton_append]
      exact List.append_subset.mpr ⟨List.subset_append_of_subset_left _ erased, List.subset_append_of_subset_right _ erased'⟩
    · rw [without_append]
      exact done

def MergePlan.calls (plan : MergePlan) : List CallSite := plan.marshalling.toList.flatMap MarshallingPlan.sites

/-- The call sites that a function does not have any more. -/
def goneFrom (f : Function) (sites : List CallSite) : List CallSite := sites.filter (·.id ∉ f.localIds)

/-- Every call site that a function does not have any more has a memory copy of its own. -/
def GoneCopied (f : Function) (sites : List CallSite) : Prop :=
  goneFrom f sites = [] ∨ ∃ copy : Function, copy.name = copyName ∧ AllCopied f copy (goneFrom f sites)

/-- What is added behind the merged function: the copy intrinsic, if copies are planned and there is none yet. -/
def Supplied (marshalling : Option MarshallingPlan) (m : Module) (added : List Function) : Prop :=
  if marshalling.isSome && (m.findFunction copyName).isNone then ∃ id, added = [copyDeclaration id] else added = []

theorem elideMarshalling_laid {m k : Module} {fs : List Function} {f : Function} {marshalling : Option MarshallingPlan}
    (coherent : k.Coherent) (laid : Laid m fs f [] k) (fits : ∀ e, marshalling = some e → e.Fits f)
    (single : ∀ e, marshalling = some e → ¬ e.Overlaps) (name : String) {o : Outcome} (fresh : o.stats.elided = 0) :
    ∃ g added, f.SameHead g ∧ Laid m fs g added (elideMarshalling name marshalling (k, o)).1 ∧
      (elideMarshalling name marshalling (k, o)).1.Coherent ∧ Supplied marshalling k added ∧
      GoneCopied g (marshalling.toList.flatMap MarshallingPlan.sites) ∧
      (elideMarshalling name marshalling (k, o)).2.stats =
        { o.stats with elided := (goneFrom g (marshalling.toList.flatMap MarshallingPlan.sites)).length } := by
  cases marshalling with
  | none =>
    refine ⟨f, [], .refl f, laid, coherent, rfl, .inl rfl, ?_⟩
    change o.stats = { o.stats with elided := 0 }
    rw [← fresh]
  | some e =>
    have listed : f ∈ k.functions := by
      rw [laid.functions]
      exact List.mem_append_right _ List.mem_cons_self
    have planned := fits e rfl
    have sites : (some e).toList.flatMap MarshallingPlan.sites = e.sites := List.append_nil _
    have inside : ∀ site ∈ e.sites, site.id ∈ f.localIds := by
      intro site listed
      apply CallSite.id_mem_localIds
      rcases List.mem_append.mp listed with receive | send
      · exact (planned.receive site (Option.mem_toList.mp receive)).listed
      · exact List.mem_singleton.mp send ▸ planned.send.listed
    rw [sites]
    unfold elideMarshalling
    dsimp only
    rcases apply_cases coherent listed planned with
      ⟨fault, refused, applied⟩ | ⟨n, copy, g, count, failed, declared, applied, reworked, whole, copied⟩
    · -- the intrinsic was refused, and every call is still there
      rw [applied]
      have none : goneFrom f e.sites = [] :=
        List.filter_eq_nil_iff.mpr fun site listed => by simpa using inside site listed
      refine ⟨f, [], .refl f, laid, coherent, ?_, .inl none, ?_⟩
      · rw [Supplied, declareCopy_refused refused]
        rfl
      · rw [none]
        rfl
    · rw [applied]
      obtain ⟨rfl, gone, _⟩ := copied (whole.mpr (single e rfl))
      have head := Function.SameHead.of_frame reworked.frame
      have all : goneFrom g e.sites = e.sites :=
        List.filter_eq_self.mpr fun site listed => by simpa using gone.gone site listed
      obtain ⟨later, _⟩ := declareCopy_coherent coherent declared
      have after := Module.setFunction_coherent later reworked.coherent
      have copies : GoneCopied g e.sites := .inr ⟨copy, (declareCopy_name declared).2, all.symm ▸ gone⟩
      rcases declareCopy_cases declared with ⟨rfl, found⟩ | ⟨rfl, rfl, missing⟩
      · refine ⟨g, [], head, laid.setMerged later.distinct head.id, after, ?_, copies, by rw [all]⟩
        rw [Supplied, found]
        rfl
      · refine ⟨g, _, head, (laid.addFunction _).setMerged later.distinct head.id, after, ?_, copies, by rw [all]⟩
        rw [Supplied, missing]
        exact ⟨_, rfl⟩

theorem Laid.findFunction_id {m n : Module} {fs added : List Function} {merged : Function} (laid : Laid m fs merged added n)
    (same : fs.map (fun f => (f.name, f.id)) = m.functions.map fun f => (f.name, f.id)) {name : String}
    (other : ∀ f ∈ merged :: added, f.name ≠ name) :
    (n.findFunction name).map (·.id) = (m.findFunction name).map (·.id) := by
  have behind : (merged :: added).find? (·.name == name) = none :=
    List.find?_eq_none.mpr fun f listed => by simpa using other f listed
  have ahead : n.findFunction name = ({ m with functions := fs } : Module).findFunction name := by
    rw [Module.findFunction, laid.functions, List.find?_append, behind, Option.or_none]
    rfl
  rw [ahead]
  exact findFunction_congr (·.id) same name

section

variable {p : Profile} {callee : String} {source : Function} {m n : Module}

theorem entryChain_ids (same : ∀ name ∈ p.givenNames callee, (n.findFunction name).map (·.id) = (m.findFunction name).map (·.id)) :
    (entryChain p callee source n).map (·.id) = (entryChain p callee source m).map (·.id) := by
  have entry := same (p.entryName callee) (by simp [Profile.givenNames])
  have start : ((p.runtimeStartName? callee).bind n.findFunction).map (·.id) =
      ((p.runtimeStartName? callee).bind m.findFunction).map (·.id) := by
    cases named : p.runtimeStartName? callee with
    | none => rfl
    | some name => exact same name (by simp [Profile.givenNames, named])
  simp only [entryChain, List.map_append, ← Option.toList_map, entry, start]

theorem entryChain_subset (listed : source ∈ m.functions) : (entryChain p callee source m).map (·.id) ⊆ m.functionIds := by
  have found : ∀ {name : String} {f : Function}, m.findFunction name = some f → f ∈ m.functions :=
    fun known => (findFunction_mem known).1
  refine List.map_subset _ fun f chosen => ?_
  simp only [entryChain, List.mem_append, Option.mem_toList, List.mem_singleton] at chosen
  rcases chosen with (entry | start) | rfl
  · exact found entry
  · obtain ⟨name, _, known⟩ := Option.bind_eq_some_iff.mp start
    exact found known
  · exact listed

end

theorem setFunction_alike {m : Module} {f g : Function} (distinct : m.symbolIds.Nodup) (listed : f ∈ m.functions)
    (same : g.id = f.id) (name : g.name = f.name) :
    (m.setFunction g).functions.map (fun f => (f.name, f.id)) = m.functions.map fun f => (f.name, f.id) := by
  rw [Module.setFunction, List.map_map]
  refine List.map_congr_left fun h present => ?_
  by_cases here : h.id = g.id
  · rw [Function.comp_apply, if_pos (by simpa using here), Module.function_eq_of_id distinct present listed (here.trans same),
      name, same]
  · rw [Function.comp_apply, if_neg (by simpa using here)]

/-- A merge ahead of its erasures. -/
structure Prepared (plan : MergePlan) (m : Module) (caller merged : Function) (added : List Function)
    (state : Module × Outcome) : Prop where
  laid : Laid m (m.setFunction caller).functions merged added state.1
  alike : (m.setFunction caller).functions.map (fun f => (f.name, f.id)) = m.functions.map fun f => (f.name, f.id)
  coherent : state.1.Coherent
  redirected : Redirected plan.rpc plan.args merged caller
  head : plan.clone.SameHead merged
  supplied : Supplied plan.marshalling m added
  copied : GoneCopied merged plan.calls
  stats : state.2.stats = { cloned := 1, replaced := 1, elided := (goneFrom merged plan.calls).length }

theorem MergePlan.Checked.prepared {plan : MergePlan} {m : Module} {name : String} (checked : plan.Checked name m)
    (coherent : m.Coherent) (p : Profile) (other : plan.clone.name ≠ copyName)
    (single : ∀ e, plan.marshalling = some e → ¬ e.Overlaps) :
    ∃ caller merged added state, Prepared plan m caller merged added state ∧ ∀ callee,
      commitMerge p callee plan m =
        (entryChain p callee plan.source state.1).foldl (eraseDoomed merged.id plan.source.id) state := by
  obtain ⟨g, redirected, replaced, after, listed⟩ := checked.redirected coherent p
  have number : g.id = plan.rpc.caller.id := by rw [redirected.frame]
  have called : g.name = plan.rpc.caller.name := (Function.SameHead.of_frame redirected.frame).name
  have target := plan.target_same p m
  have apart : (plan.target p m).id ≠ g.id := number ▸ checked.target_other p
  have first : Laid m (m.setFunction g).functions (plan.target p m) [] ((m.addFunction (plan.target p m)).setFunction g) := by
    refine ⟨rfl, ?_⟩
    simp [Module.setFunction, Module.addFunction, apart]
  have ids := setFunction_alike coherent.distinct checked.replaceable.caller number called
  have missing : (((m.addFunction (plan.target p m)).setFunction g).findFunction copyName).isNone =
      (m.findFunction copyName).isNone := by
    have found := first.findFunction_id ids fun f listed => by
      rw [List.mem_singleton.mp listed, target.name]
      exact other
    rw [← Option.isNone_map, found, Option.isNone_map]
  obtain ⟨h, added, head, second, middle, supplied, copied, counted⟩ := elideMarshalling_laid after first
    (fun e planned => (checked.marshalling e planned).of_same target) single (plan.target p m).name (o := plan.begun) rfl
  refine ⟨g, h, added, _, ⟨second, ids, middle, redirected.of_same head, target.toSameHead.trans head, ?_, copied, counted⟩,
    fun callee => ?_⟩
  · rw [Supplied, missing] at supplied
    exact supplied
  · rw [commitMerge_of_replaced replaced, head.id]

theorem Laid.missing {m k n : Module} {fs added : List Function} {merged merged' : Function} {gone : List SymbolId}
    (before : Laid m fs merged added k) (distinct : k.symbolIds.Nodup) (after : Laid m (without gone fs) merged' added n)
    (same : merged'.id = merged.id) :
    ((fs.map (·.id)).filter (· ∉ n.functionIds)).length + n.functions.length = k.functions.length := by
  obtain ⟨ahead, _⟩ := before.apart distinct
  have ids : n.functionIds = (without gone fs).map (·.id) ++ merged.id :: added.map (·.id) := by
    rw [Module.functionIds, after.functions, List.map_append, List.map_cons, same]
  have lost : ∀ f ∈ fs, f.id ∉ n.functionIds ↔ f.id ∈ gone := by
    intro f listed
    have behind : f.id ∉ merged.id :: added.map (·.id) := by
      rw [← List.map_cons (f := fun f : Function => f.id)]
      intro present
      obtain ⟨g, last, equal⟩ := List.mem_map.mp present
      exact ahead f listed g last equal.symm
    rw [ids, List.mem_append, or_iff_left behind]
    constructor
    · intro missing
      by_contra stays
      exact missing (List.mem_map.mpr ⟨f, List.mem_filter.mpr ⟨listed, by simpa using stays⟩, rfl⟩)
    · intro chosen present
      obtain ⟨g, kept, equal⟩ := List.mem_map.mp present
      have other : g.id ∉ gone := by simpa using (List.mem_filter.mp kept).2
      exact other (equal ▸ chosen)
  have counted : ((fs.map (·.id)).filter (· ∉ n.functionIds)).length = (fs.filter (·.id ∈ gone)).length := by
    rw [List.filter_map, List.length_map]
    refine congrArg List.length (List.filter_congr fun f listed => ?_)
    rw [Function.comp_apply, decide_eq_decide]
    exact lost f listed
  have split : fs.length = (fs.filter (·.id ∈ gone)).length + (without gone fs).length := by
    rw [List.length_eq_length_filter_add (·.id ∈ gone), without]
    simp
  rw [counted, after.functions, before.functions, List.length_append, List.length_append, split]
  simp only [List.length_cons]
  omega

theorem Supplied.named {marshalling : Option MarshallingPlan} {m : Module} {added : List Function}
    (supplied : Supplied marshalling m added) : ∀ f ∈ added, f.name = copyName := by
  unfold Supplied at supplied
  split at supplied
  · obtain ⟨id, rfl⟩ := supplied
    exact fun f listed => List.mem_singleton.mp listed ▸ copyDeclaration_name id
  · subst supplied
    exact fun f listed => nomatch listed

namespace Prepared

variable {p : Profile} {callee : String} {plan : MergePlan} {m : Module} {caller merged : Function} {added : List Function}
  {state : Module × Outcome}

theorem functionIds (prepared : Prepared plan m caller merged added state) :
    (m.setFunction caller).functionIds = m.functionIds := by
  simpa [Module.functionIds, Function.comp_def] using congrArg (List.map Prod.snd) prepared.alike

/-- The entry chain is looked up in the edited module, and comes to the functions that it was made of before. -/
theorem chain (prepared : Prepared plan m caller merged added state) (registered : p.Registered)
    (named : plan.clone.name = p.mergedCalleeName callee) :
    (entryChain p callee plan.source state.1).map (·.id) = (entryChain p callee plan.source m).map (·.id) := by
  obtain ⟨_, apart⟩ := registered.names_apart callee
  refine entryChain_ids fun name given => prepared.laid.findFunction_id prepared.alike fun f behind => ?_
  rcases List.mem_cons.mp behind with rfl | last
  · rw [prepared.head.name, named]
    exact (apart name given).1
  · rw [prepared.supplied.named f last]
    exact (apart name given).2

theorem spared (prepared : Prepared plan m caller merged added state) {doomed : Function} (known : doomed.id ∈ m.functionIds) :
    ∀ f ∈ merged :: added, f.id ≠ doomed.id := by
  intro f behind
  rw [← prepared.functionIds] at known
  obtain ⟨g, ahead, same⟩ := List.mem_map.mp known
  exact same ▸ ((prepared.laid.apart prepared.coherent.distinct).1 g ahead f behind).symm

end Prepared

theorem GoneCopied.of_same {f g : Function} {sites : List CallSite} (copied : GoneCopied f sites) (same : f.SameBody g) :
    goneFrom g sites = goneFrom f sites ∧ GoneCopied g sites := by
  have gone : goneFrom g sites = goneFrom f sites := by rw [goneFrom, goneFrom, same.localIds]
  refine ⟨gone, ?_⟩
  rw [GoneCopied, gone]
  exact copied.imp_right fun ⟨copy, name, all⟩ => ⟨copy, name, all.of_same same rfl⟩

/-- What a merge has made of a module, and how it counted its edits. -/
structure Accounted (p : Profile) (callee : String) (plan : MergePlan) (m n : Module) (stats : Stats)
    (gone : List SymbolId) (caller merged : Function) (added : List Function) : Prop where
  laid : Laid m (without gone (m.setFunction caller).functions) merged added n
  distinct : n.symbolIds.Nodup
  erased : gone ⊆ (entryChain p callee plan.source m).map (·.id)
  redirected : Redirected plan.rpc plan.args merged caller
  head : plan.clone.SameHead merged
  named : merged.name = p.mergedCalleeName callee
  supplied : Supplied plan.marshalling m added
  copied : GoneCopied merged plan.calls
  stats : stats = {
    renamed := 0
    cloned := 1
    erased := (m.functionIds.filter (· ∉ n.functionIds)).length
    replaced := 1
    elided := (goneFrom merged plan.calls).length }

theorem MergePlan.Checked.accounted {p : Profile} {callee : String} {plan : MergePlan} {m : Module}
    (checked : plan.Checked (p.mergedCalleeName callee) m) (coherent : m.Coherent) (registered : p.Registered)
    (single : ∀ e, plan.marshalling = some e → ¬ e.Overlaps) :
    ∃ gone caller merged added, Accounted p callee plan m (commitMerge p callee plan m).1
      (commitMerge p callee plan m).2.stats gone caller merged added := by
  have named : plan.clone.name = p.mergedCalleeName callee := checked.clone_name.trans (registered.merged_shown callee)
  have apart : plan.clone.name ≠ copyName := named ▸ (registered.names_apart callee).1
  obtain ⟨caller, merged, added, state, prepared, committed⟩ := checked.prepared coherent p apart single
  have chain := prepared.chain registered named
  have spared : ∀ doomed ∈ entryChain p callee plan.source state.1, ∀ f ∈ merged :: added, f.id ≠ doomed.id :=
    fun doomed chosen => prepared.spared
      (entryChain_subset checked.source (chain ▸ List.mem_map.mpr ⟨doomed, chosen, rfl⟩))
  obtain ⟨tallied, gone, merged', erased, body, done⟩ := eraseDoomed_foldl_laid _ prepared.laid prepared.coherent.distinct
    spared plan.source.id
  obtain ⟨same, copied⟩ := prepared.copied.of_same body
  rw [committed callee]
  refine ⟨gone, caller, merged', added, done, ?_, chain ▸ erased, prepared.redirected.of_same body.toSameHead,
    prepared.head.trans body.toSameHead, (body.name.trans prepared.head.name).trans named, prepared.supplied, copied, ?_⟩
  · exact (eraseDoomed_foldl_pared _ prepared.coherent.distinct _ _).1.distinct
  · have missing := prepared.laid.missing prepared.coherent.distinct done body.id
    rw [← Module.functionIds, prepared.functionIds] at missing
    have total := tallied.total
    rw [prepared.stats] at total
    rw [tallied.others, prepared.stats, same]
    simp only [Stats.mk.injEq, true_and, and_true]
    dsimp only at total
    omega

/-- A merge that changes a module adds the merged function, redirects one call of the caller and erases functions of the
entry chain; everything else is as it was, and each of these edits is counted. -/
theorem merge_accounted {σ : Type} (bridge : Bridge σ) (state : σ) {o : Options} (mode : o.mode = .mergeCallee)
    {m : Module} (coherent : m.Coherent)
    (changed : (run bridge state o m).1.2.changed = true) :
    ∃ plan gone caller merged added, mergePlanOf bridge state o m = .ok plan ∧
      Accounted o.effectiveProfile o.callee plan m (run bridge state o m).1.1 (run bridge state o m).1.2.stats
        gone caller merged added := by
  obtain ⟨plan, l, found⟩ := exists_plan_of_changed mode changed
  obtain ⟨checked, _⟩ := planMerge_found found
  have known := o.registered
  have single : ∀ e, plan.marshalling = some e → ¬ e.Overlaps := by
    intro e planned
    rcases planMerge_marshalling found with ⟨none, _⟩ | ⟨e', planned', first⟩
    · rw [none] at planned
      cases planned
    · obtain rfl := Option.some.inj (planned.symm.trans planned')
      have numbered := (Function.withSignature_coherent (coherent.functions _ checked.source) checked.cloned).numbered
      exact first.not_overlaps numbered known.receive_ne_send
  obtain ⟨module, _, _, _⟩ := run_of_found mode found
  have stats : (run bridge state o m).1.2.stats = (commitMerge o.effectiveProfile o.callee plan m).2.stats := by
    simp only [run, runMode, mode, mergeCallee, run_bind, found]
    rfl
  obtain ⟨gone, caller, merged, added, accounted⟩ := checked.accounted coherent known single
  rw [module, stats]
  exact ⟨plan, gone, caller, merged, added, congrArg Prod.fst found, accounted⟩

theorem halves_accounted : ∃ plan gone caller merged added,
    mergePlanOf Bridge.inProcess () Halves.merging (Halves.program 64) = .ok plan ∧
      Accounted .go "b" plan (Halves.program 64) (run Bridge.inProcess () Halves.merging (Halves.program 64)).1.1
        (run Bridge.inProcess () Halves.merging (Halves.program 64)).1.2.stats gone caller merged added := by
  obtain ⟨args, size, reports, l, found, _⟩ := Halves.found_eq 64
  obtain ⟨_, changed, _⟩ := run_of_found (o := Halves.merging) rfl found
  exact merge_accounted Bridge.inProcess () (o := Halves.merging) rfl
    (Halves.program_sound 64).coherent changed

end CallFusion
