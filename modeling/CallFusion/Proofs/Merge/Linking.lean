import CallFusion.Proofs.Merge.Suffixes

/-!
Linking the two halves of a split program. In each half every function has the name of its partition behind its own,
so whatever the two modules are no function of the one is called like one of the other, exactly if neither partition
name ends in the other behind an underscore.
-/

namespace CallFusion

open Ir

/-- No function of the one module is called like one of the other, intrinsics apart. -/
def Links (m n : Module) : Prop :=
  ∀ f ∈ m.functions, ∀ g ∈ n.functions, isIntrinsic f.name = false → isIntrinsic g.name = false → f.name ≠ g.name

/-- Every function that is no intrinsic has a name with the suffix behind it. -/
def Marked (suffix : String) (m : Module) : Prop :=
  ∀ f ∈ m.functions, isIntrinsic f.name = false → ∃ front, f.name = front ++ "_" ++ suffix

theorem Marked.links {a b : String} {m n : Module} (first : Marked a m) (second : Marked b n) (distinct : a ≠ b)
    (apart : ¬ TailOf a b) (apart' : ¬ TailOf b a) : Links m n := by
  intro f inFirst g inSecond ordinary ordinary' same
  obtain ⟨s, called⟩ := first f inFirst ordinary
  obtain ⟨t, called'⟩ := second g inSecond ordinary'
  rw [called, called', suffixed_eq_iff] at same
  rcases same with ⟨_, equal⟩ | ⟨u, _, ending⟩ | ⟨u, _, ending⟩
  · exact distinct equal
  · exact apart ⟨u, ending⟩
  · exact apart' ⟨u, ending⟩

theorem Renaming.applyTo_marked {r : Renaming} {m : Module} (legible : r.Legible m) {suffix : String}
    (kept : ∀ f ∈ m.functions, isIntrinsic f.name = true → r.nameFor f = f.name)
    (given : ∀ f ∈ m.functions, isIntrinsic f.name = false → ∃ front, r.nameFor f = front ++ "_" ++ suffix) :
    Marked suffix (r.applyTo m) := by
  intro g listed ordinary
  obtain ⟨f, member, rfl⟩ := List.mem_map.mp listed
  rw [name_identFor legible member] at ordinary ⊢
  cases before : isIntrinsic f.name with
  | false => exact given f member before
  | true =>
    rw [kept f member before, before] at ordinary
    cases ordinary

section

variable {σ : Type} {bridge : Bridge σ} {state : σ} {o : Options} {m : Module}

theorem renamed_caller_marked (mode : o.mode = .renameCaller) (named : o.caller ≠ "") (ids : m.symbolIds.Nodup)
    (free : (run bridge state o m).1.2.diagnostics.blocking = false) : Marked o.caller (run bridge state o m).1.1 := by
  obtain ⟨module, diagnostics⟩ := run_renameCaller bridge state mode m
  have filled : ¬ o.caller.isEmpty = true := by simpa using named
  rw [diagnostics, renameCaller, if_neg filled, Renaming.run] at free
  rw [module, renameCaller, if_neg filled, Renaming.run]
  split at free
  · cases free
  · refine Renaming.applyTo_marked (callerRenaming_legible ids o.caller) (fun f listed intrinsic => ?_)
      fun f listed ordinary => ⟨f.name, ?_⟩
    · rw [callerRenaming_nameFor ids listed, intrinsic, if_pos rfl]
    · rw [callerRenaming_nameFor ids listed, ordinary]
      rfl

theorem renamed_callee_marked (mode : o.mode = .renameCallee) (ids : m.symbolIds.Nodup) (changed : (run bridge state o m).1.2.changed = true) :
    Marked o.callee (run bridge state o m).1.1 := by
  obtain ⟨module, outcome⟩ := run_renameCallee bridge state mode m
  rw [outcome] at changed
  rw [module]
  rcases renameCallee_cases with ⟨_, unchanged⟩ | ⟨entry, boot, ds, _, _, form⟩
  · rw [unchanged] at changed
    cases changed
  · rw [form] at changed ⊢
    rcases Renaming.run_cases _ .renameCallee ds m with ⟨_, unchanged⟩ | ⟨_, applied, _⟩
    · rw [unchanged] at changed
      cases changed
    · rw [applied]
      have legible := calleeRenaming_legible ids o.legible entry boot.target (findRuntimeStart m entry)
      refine Renaming.applyTo_marked legible (fun f listed intrinsic => ?_) fun f listed ordinary => ?_
      · rw [calleeRenaming_nameFor ids listed, intrinsic, if_pos rfl]
      · rw [calleeRenaming_nameFor ids listed, ordinary]
        cases found : (specialNames o.effectiveProfile o.callee entry boot.target (findRuntimeStart m entry)).find?
            (·.1 == f.id) with
        | none => exact ⟨f.name, rfl⟩
        | some e =>
          obtain ⟨stem, _, named⟩ := o.registered.exists_stem
            (specialNames_given (List.mem_of_find?_eq_some found))
          exact ⟨stem, named⟩

end

namespace Loading

/-- A caller half of one function, whose name starts with `load`. -/
def callerHalf (rest : String) : Module where
  functions := [outside 1 ("load" ++ rest) []]

/-- A callee half with a function whose name starts with `load` beside its entry chain. -/
def calleeHalf (rest : String) : Module where
  functions := [Launching.entry, Launching.work, Launching.launch, outside 5 ("load" ++ rest) []]

variable {id : Nat} {rest callee : String} {types : List Ty}

theorem load_name : (outside id ("load" ++ rest) types).name = "load" ++ rest := by
  apply Ident.shown_named (c := 'l') <;> simp

theorem load_ordinary : isIntrinsic ("load" ++ rest) = false := by
  simp [isIntrinsic]

theorem chain_stems {p : Profile} (registered : p.Registered) (callee rest : String) :
    ∃ entry work launch, p.entryName callee = entry ++ "_" ++ callee ∧ p.realCalleeName callee = work ++ "_" ++ callee ∧
      (p.runtimeStartName? callee).getD ("launch" ++ "_" ++ callee) = launch ++ "_" ++ callee ∧
        [entry, work, launch, "load" ++ rest].Nodup := by
  obtain ⟨payload, rfl | rfl⟩ := registered
  · refine ⟨"main_for", "main_2nd_for", "launch", rfl, rfl, rfl, ?_⟩
    simp [String.ext_iff]
  · refine ⟨"main_callee_rust", "callee", "_std_rt_lang_start_callee", rfl, rfl, rfl, ?_⟩
    simp [String.ext_iff]

theorem distinct (rest : String) : (callerHalf rest).symbolIds.Nodup ∧ (calleeHalf rest).symbolIds.Nodup :=
  ⟨List.nodup_singleton _, by simp [Module.symbolIds, calleeHalf, Launching.entry, Launching.work, Launching.launch, outside]⟩

theorem new_names {p : Profile} (registered : p.Registered) (callee rest : String) :
    ((calleeHalf rest).functions.map (calleeRenaming (calleeHalf rest) p callee Launching.entry Launching.work
        (some Launching.launch)).nameFor).Nodup ∧
      (calleeRenaming (calleeHalf rest) p callee Launching.entry Launching.work (some Launching.launch)).nameFor
        (outside 5 ("load" ++ rest) []) = "load" ++ rest ++ "_" ++ callee := by
  obtain ⟨entry, work, launch, first, second, third, apart⟩ := chain_stems registered callee rest
  have chain := Launching.chain_names (distinct rest).2 (by simp [calleeHalf]) p callee
  have last := calleeRenaming_nameFor (distinct rest).2 (f := outside 5 ("load" ++ rest) []) (by simp [calleeHalf]) p callee
    Launching.entry Launching.work (some Launching.launch)
  rw [specialNames_other (by simp [outside, Launching.work]) (by simp [outside, Launching.entry])
    (by simp [outside, Launching.launch]), load_name, load_ordinary] at last
  have names : (calleeHalf rest).functions.map (calleeRenaming (calleeHalf rest) p callee Launching.entry Launching.work
      (some Launching.launch)).nameFor = [entry, work, launch, "load" ++ rest].map (· ++ "_" ++ callee) := by
    have listed : (calleeHalf rest).functions =
        [Launching.entry, Launching.work, Launching.launch, outside 5 ("load" ++ rest) []] := rfl
    simp only [listed, List.map_cons, List.map_nil, chain, first, second, third, last]
    rfl
  refine ⟨?_, last⟩
  rw [names]
  refine apart.map fun front front' same => ?_
  simpa using same

variable {σ : Type} (bridge : Bridge σ) (state : σ) {o : Options}

theorem callerHalf_renamed (mode : o.mode = .renameCaller) (named : o.caller ≠ "") (rest : String) :
    (run bridge state o (callerHalf rest)).1.2.diagnostics.blocking = false ∧
      ∃ f ∈ (run bridge state o (callerHalf rest)).1.1.functions, f.name = "load" ++ rest ++ "_" ++ o.caller := by
  obtain ⟨module, diagnostics⟩ := run_renameCaller bridge state mode (callerHalf rest)
  have filled : ¬ o.caller.isEmpty = true := by simpa using named
  have ids := (distinct rest).1
  have only : outside 1 ("load" ++ rest) [] ∈ (callerHalf rest).functions := List.mem_singleton_self _
  have given := callerRenaming_nameFor ids only o.caller
  rw [load_name, load_ordinary] at given
  have free : ((callerHalf rest).functions.map (callerRenaming (callerHalf rest) o.caller).nameFor).Nodup :=
    List.nodup_singleton _
  rw [module, diagnostics, renameCaller, if_neg filled, Renaming.run_of_distinct free]
  exact ⟨rfl, _, List.mem_map.mpr ⟨_, only, rfl⟩, (Renaming.name_identFor (callerRenaming_legible ids o.caller) only).trans given⟩

theorem calleeHalf_renamed (mode : o.mode = .renameCallee) (named : o.callee ≠ "") (rest : String) :
    (run bridge state o (calleeHalf rest)).1.2.changed = true ∧
      ∃ f ∈ (run bridge state o (calleeHalf rest)).1.1.functions, f.name = "load" ++ rest ++ "_" ++ o.callee := by
  obtain ⟨module, outcome⟩ := run_renameCallee bridge state mode (calleeHalf rest)
  have filled : ¬ o.callee.isEmpty = true := by simpa using named
  have called : (calleeHalf rest).calledFunction? Launching.entry Launching.start = some Launching.launch := rfl
  have started : findBootstrap (calleeHalf rest) Launching.entry = (some ⟨Launching.start, Launching.work⟩, []) :=
    Launching.findBootstrap_of_called called rfl
  have main : (calleeHalf rest).findFunction "main" = some Launching.entry := by
    simp [Module.findFunction, calleeHalf, Launching.entry_name]
  have ids := (distinct rest).2
  have legible := calleeRenaming_legible ids o.legible Launching.entry Launching.work (some Launching.launch)
  have last : outside 5 ("load" ++ rest) [] ∈ (calleeHalf rest).functions := by simp [calleeHalf]
  obtain ⟨free, given⟩ := new_names o.registered o.callee rest
  have counted : 0 < (calleeRenaming (calleeHalf rest) o.effectiveProfile o.callee Launching.entry Launching.work
      (some Launching.launch)).count (calleeHalf rest) := by
    refine List.length_pos_of_mem (a := outside 5 ("load" ++ rest) []) (List.mem_filter.mpr ⟨last, ?_⟩)
    rw [given, load_name]
    simpa using suffixed_ne_self ("load" ++ rest) o.callee
  rw [module, outcome]
  simp only [renameCallee, if_neg filled, main, started, Launching.findRuntimeStart_of_called called]
  rw [Renaming.run_of_distinct free]
  refine ⟨by simpa using counted, _, List.mem_map.mpr ⟨_, last, rfl⟩, (Renaming.name_identFor legible last).trans given⟩

theorem not_links {m n : Module} {name : String} (ordinary : isIntrinsic name = false)
    (first : ∃ f ∈ m.functions, f.name = name) (second : ∃ g ∈ n.functions, g.name = name) : ¬ Links m n := by
  obtain ⟨f, inFirst, rfl⟩ := first
  obtain ⟨g, inSecond, same⟩ := second
  intro apart
  exact apart f inFirst g inSecond ordinary (same ▸ ordinary) same.symm

end Loading

/-- Whatever the halves of two partitions are, they link when they are renamed, exactly if neither partition name ends
in the other behind an underscore. -/
theorem halves_link_iff {σ τ : Type} (bridge : Bridge σ) (state : σ) (bridge' : Bridge τ) (state' : τ) {o o' : Options}
    (mode : o.mode = .renameCaller) (mode' : o'.mode = .renameCallee) (named : o.caller ≠ "") (named' : o'.callee ≠ "")
    (distinct : o.caller ≠ o'.callee) :
    (∀ m n : Module, m.symbolIds.Nodup → n.symbolIds.Nodup → (run bridge state o m).1.2.diagnostics.blocking = false →
      (run bridge' state' o' n).1.2.changed = true → Links (run bridge state o m).1.1 (run bridge' state' o' n).1.1) ↔
        ¬ TailOf o.caller o'.callee ∧ ¬ TailOf o'.callee o.caller := by
  constructor
  · intro linked
    have clash : ∀ rest rest', "load" ++ rest ++ "_" ++ o.caller ≠ "load" ++ rest' ++ "_" ++ o'.callee := by
      intro rest rest' same
      obtain ⟨free, first⟩ := Loading.callerHalf_renamed bridge state mode named rest
      obtain ⟨changed, second⟩ := Loading.calleeHalf_renamed bridge' state' mode' named' rest'
      rw [← same] at second
      have ordinary : isIntrinsic ("load" ++ rest ++ "_" ++ o.caller) = false := by simp [isIntrinsic]
      exact Loading.not_links ordinary first second
        (linked _ _ (Loading.distinct rest).1 (Loading.distinct rest').2 free changed)
    constructor
    · rintro ⟨u, ending⟩
      refine clash ("_" ++ u) "" (suffixed_eq_iff.mpr (.inr (.inl ⟨u, ?_, ending⟩)))
      simp only [String.append_assoc, String.append_empty]
    · rintro ⟨u, ending⟩
      refine clash "" ("_" ++ u) (suffixed_eq_iff.mpr (.inr (.inr ⟨u, ?_, ending⟩)))
      simp only [String.append_assoc, String.append_empty]
  · rintro ⟨apart, apart'⟩ m n ids ids' free changed
    exact (renamed_caller_marked mode named ids free).links (renamed_callee_marked mode' ids' changed) distinct
      apart apart'

namespace Loading

def callerOptions (name : String) : Options := { mode := .renameCaller, caller := name }

def calleeOptions (name : String) : Options := { mode := .renameCallee, callee := name, profile := some ⟨.go, by simp [Profile.all]⟩ }

end Loading

theorem loading_halves_link :
    Links (run Bridge.inProcess () (Loading.callerOptions "a") (Loading.callerHalf "")).1.1
      (run Bridge.inProcess () (Loading.calleeOptions "b") (Loading.calleeHalf "")).1.1 := by
  have apart : ¬ TailOf "a" "b" ∧ ¬ TailOf "b" "a" := by
    constructor
    · rintro ⟨u, ending⟩
      simpa using congrArg (·.toList.length) ending
    · rintro ⟨u, ending⟩
      simpa using congrArg (·.toList.length) ending
  have linked := (@halves_link_iff _ _ Bridge.inProcess () Bridge.inProcess () (Loading.callerOptions "a")
    (Loading.calleeOptions "b") rfl rfl (by decide) (by decide) (by decide)).mpr apart
  exact linked _ _ (Loading.distinct "").1 (Loading.distinct "").2
    (Loading.callerHalf_renamed _ _ rfl (by decide) "").1 (Loading.calleeHalf_renamed _ _ rfl (by decide) "").1

/-- A function `load` of the partition `web_db` and a function `load_web` of the partition `db` get one name. -/
theorem loading_halves_clash :
    (run Bridge.inProcess () (Loading.callerOptions "web_db") (Loading.callerHalf "")).1.2.diagnostics.blocking = false ∧
      (run Bridge.inProcess () (Loading.calleeOptions "db") (Loading.calleeHalf "_web")).1.2.changed = true ∧
      ¬ Links (run Bridge.inProcess () (Loading.callerOptions "web_db") (Loading.callerHalf "")).1.1
        (run Bridge.inProcess () (Loading.calleeOptions "db") (Loading.calleeHalf "_web")).1.1 := by
  obtain ⟨free, first⟩ := Loading.callerHalf_renamed Bridge.inProcess () (o := Loading.callerOptions "web_db") rfl
    (by decide) ""
  obtain ⟨changed, second⟩ := Loading.calleeHalf_renamed Bridge.inProcess () (o := Loading.calleeOptions "db") rfl
    (by decide) "_web"
  exact ⟨free, changed, Loading.not_links (by decide +kernel) first second⟩

end CallFusion
