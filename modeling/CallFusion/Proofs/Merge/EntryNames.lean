import CallFusion.Proofs.Ir.Callees
import CallFusion.Proofs.Ir.Declarations
import CallFusion.Proofs.Merge.Planning
import CallFusion.Proofs.Merge.Renaming

/-!
What renaming a callee half leaves for a later merge to look up. Names are all that the two runs share, so each
function of the entry chain has to be the one that its new name finds.
-/

namespace CallFusion

open Ir

/-- Looking up the name gives this function, whatever it was called before. -/
def Ir.Module.Finds (m : Module) (name : String) (f : Function) : Prop :=
  ∃ symbol, m.findFunction name = some { f with symbol := symbol }

theorem findFunction_of_mem {m : Module} {f : Function} (distinct : (m.functions.map (·.name)).Nodup)
    (listed : f ∈ m.functions) : m.findFunction f.name = some f := by
  cases found : m.findFunction f.name with
  | none =>
    have other := List.find?_eq_none.mp found f listed
    simp at other
  | some g =>
    obtain ⟨member, same⟩ := findFunction_mem found
    rw [List.inj_on_of_nodup_map distinct member listed same]

theorem findRuntimeStart_mem {m : Module} {entry s : Function} (found : findRuntimeStart m entry = some s) :
    s ∈ m.functions ∧ isIntrinsic s.name = false := by
  obtain ⟨site, _, chosen⟩ := List.exists_of_findSome?_eq_some found
  split at chosen
  · next f called =>
    split at chosen
    · cases chosen
    · next ordinary =>
      cases chosen
      obtain ⟨_, _, known⟩ := Option.bind_eq_some_iff.mp called
      exact ⟨(function?_mem known).1, by simpa using ordinary⟩
  · cases chosen

namespace Renaming

variable {r : Renaming} {m : Module} {f : Function}

theorem applyTo_finds (legible : r.Legible m) (distinct : (m.functions.map r.nameFor).Nodup) (listed : f ∈ m.functions) :
    (r.applyTo m).Finds (r.nameFor f) f := by
  have names : ((r.applyTo m).functions.map (·.name)).Nodup := by
    rw [applyTo_names legible]
    exact distinct
  have there : { f with symbol := r.identFor f } ∈ (r.applyTo m).functions := List.mem_map.mpr ⟨f, listed, rfl⟩
  refine ⟨r.identFor f, ?_⟩
  rw [← name_identFor legible listed]
  exact findFunction_of_mem names there

theorem function?_applyTo (r : Renaming) (m : Module) (id : SymbolId) :
    (r.applyTo m).function? id = (m.function? id).map fun f => { f with symbol := r.identFor f } :=
  List.find?_map

theorem calledFunction?_applyTo (r : Renaming) (m : Module) (f : Function) (symbol : Ident) (site : CallSite) :
    ((r.applyTo m).calledFunction? { f with symbol := symbol } site).map (·.id) = (m.calledFunction? f site).map (·.id) := by
  have same : { f with symbol := symbol }.calledId? site = f.calledId? site :=
    Function.calledId?_congr (f := f) (g := { f with symbol := symbol }) rfl site
  rw [Module.calledFunction?, Module.calledFunction?, same]
  cases f.calledId? site with
  | none => rfl
  | some id => rw [Option.bind_some, Option.bind_some, function?_applyTo, Option.map_map]; rfl

theorem count_eq (ids : m.symbolIds.Nodup) (legible : r.Legible m) :
    r.count m = (m.functions.filter fun f => ((r.applyTo m).function? f.id).map (·.name) != some f.name).length := by
  rw [count]
  congr 1
  apply List.filter_congr
  intro f listed
  rw [function?_applyTo, Module.function?_of_mem ids listed, Option.map_some, Option.map_some,
    name_identFor legible listed]
  rfl

end Renaming

section

variable {m : Module} {p : Profile} {callee : String} {entry target : Function} {start : Option Function} {f : Function}

theorem specialNames_target :
    (specialNames p callee entry target start).find? (·.1 == target.id) = some (target.id, p.realCalleeName callee) := by
  simp [specialNames]

theorem specialNames_entry (apart : target.id ≠ entry.id) :
    (specialNames p callee entry target start).find? (·.1 == entry.id) = some (entry.id, p.entryName callee) := by
  simp [specialNames, apart]

theorem specialNames_start {name : String} (named : p.runtimeStartName? callee = some name) (given : start = some f)
    (notTarget : target.id ≠ f.id) (notEntry : entry.id ≠ f.id) :
    (specialNames p callee entry target start).find? (·.1 == f.id) = some (f.id, name) := by
  simp [specialNames, named, given, notTarget, notEntry]

theorem specialNames_other (notTarget : target.id ≠ f.id) (notEntry : entry.id ≠ f.id)
    (other : (p.runtimeStartName? callee).isSome → start.map (·.id) ≠ some f.id) :
    (specialNames p callee entry target start).find? (·.1 == f.id) = none := by
  cases named : p.runtimeStartName? callee with
  | none => simp [specialNames, named, notTarget, notEntry]
  | some name =>
    cases start with
    | none => simp [specialNames, named, notTarget, notEntry]
    | some s =>
      have apart : s.id ≠ f.id := by simpa [named] using other
      simp [specialNames, named, notTarget, notEntry, apart]

end

/-- The names in a callee half that was renamed, by what its functions were before: `entry` is the one named `main`
and `target` the one that its start-up call is given. -/
structure EntryNamed (p : Profile) (callee : String) (m : Module) (entry target : Function) (n : Module)
    (renamed : Nat) : Prop where
  distinct : (n.functions.map (·.name)).Nodup
  real : n.Finds (p.realCalleeName callee) target
  main : n.Finds (p.entryName callee) entry
  start : ∀ s, findRuntimeStart m entry = some s → isIntrinsic s.name = false ∧
    ∀ name, p.runtimeStartName? callee = some name → s.id ≠ target.id → s.id ≠ entry.id → n.Finds name s
  others : ∀ f ∈ m.functions, isIntrinsic f.name = false → f.id ≠ target.id → f.id ≠ entry.id →
    ((p.runtimeStartName? callee).isSome → (findRuntimeStart m entry).map (·.id) ≠ some f.id) →
      n.Finds (f.name ++ "_" ++ callee) f
  intrinsics : ∀ f ∈ m.functions, isIntrinsic f.name = true → n.findFunction f.name = some f
  calls : ∀ f ∈ m.functions, ∃ symbol, { f with symbol := symbol } ∈ n.functions ∧ ∀ site,
    (n.calledFunction? { f with symbol := symbol } site).map (·.id) = (m.calledFunction? f site).map (·.id)
  counted : renamed = (m.functions.filter fun f => (n.function? f.id).map (·.name) != some f.name).length

theorem calleeRenaming_entryNamed {m : Module} (ids : m.symbolIds.Nodup) {p : Profile} {callee : String}
    (legible : p.Legible callee) {entry target : Function} (present : m.findFunction "main" = some entry)
    (given : target ∈ m.functions) (apart : target.id ≠ entry.id) (ordinary : isIntrinsic target.name = false)
    (distinct : (m.functions.map (calleeRenaming m p callee entry target (findRuntimeStart m entry)).nameFor).Nodup) :
    EntryNamed p callee m entry target ((calleeRenaming m p callee entry target (findRuntimeStart m entry)).applyTo m)
      ((calleeRenaming m p callee entry target (findRuntimeStart m entry)).count m) := by
  have named := fun f (listed : f ∈ m.functions) =>
    calleeRenaming_nameFor ids listed p callee entry target (findRuntimeStart m entry)
  have shown := calleeRenaming_legible ids legible entry target (findRuntimeStart m entry)
  have found := fun f (listed : f ∈ m.functions) => named f listed ▸ Renaming.applyTo_finds shown distinct listed
  obtain ⟨first, main⟩ := findFunction_mem present
  have entryOrdinary : isIntrinsic entry.name = false := by
    rw [main]
    decide +kernel
  constructor
  case distinct =>
    rw [Renaming.applyTo_names shown]
    exact distinct
  case real => simpa [ordinary, specialNames_target] using found target given
  case main => simpa [entryOrdinary, specialNames_entry apart] using found entry first
  case start =>
    intro s started
    obtain ⟨listed, never⟩ := findRuntimeStart_mem started
    refine ⟨never, fun name stem notTarget notEntry => ?_⟩
    simpa [never, specialNames_start stem started notTarget.symm notEntry.symm] using found s listed
  case others =>
    intro f listed plain notTarget notEntry other
    simpa [plain, specialNames_other notTarget.symm notEntry.symm other] using found f listed
  case intrinsics =>
    intro f listed intrinsic
    have kept : (calleeRenaming m p callee entry target (findRuntimeStart m entry)).nameFor f = f.name := by
      simp [named f listed, intrinsic]
    have there : f ∈ ((calleeRenaming m p callee entry target (findRuntimeStart m entry)).applyTo m).functions :=
      List.mem_map.mpr ⟨f, listed, by simp [Renaming.identFor, kept]⟩
    exact findFunction_of_mem (by rw [Renaming.applyTo_names shown]; exact distinct) there
  case calls =>
    intro f listed
    exact ⟨_, List.mem_map.mpr ⟨f, listed, rfl⟩, fun site => Renaming.calledFunction?_applyTo _ m f _ site⟩
  case counted => exact Renaming.count_eq ids shown

variable {σ : Type}

/-- A run that renames a callee half leaves each function of the entry chain under the name that a merge looks
it up by, and every other one under its old name with the callee's behind it, intrinsics excepted. -/
theorem renamed_callee_entry_named (bridge : Bridge σ) (state : σ) {o : Options} (mode : o.mode = .renameCallee)
    {m : Module} (ids : m.symbolIds.Nodup)
    (changed : (run bridge state o m).1.2.changed = true) :
    ∃ entry boot, m.findFunction "main" = some entry ∧ (findBootstrap m entry).1 = some boot ∧
      (boot.target.id ≠ entry.id → isIntrinsic boot.target.name = false →
        EntryNamed o.effectiveProfile o.callee m entry boot.target (run bridge state o m).1.1
          (run bridge state o m).1.2.stats.renamed) := by
  have module : (run bridge state o m).1.1 = (renameCallee o.effectiveProfile o.callee m).1 := by
    simp only [run, runMode, mode]
    rfl
  have outcome : (run bridge state o m).1.2.changed = (renameCallee o.effectiveProfile o.callee m).2.changed ∧
      (run bridge state o m).1.2.stats = (renameCallee o.effectiveProfile o.callee m).2.stats := by
    simp only [run, runMode, mode]
    exact ⟨rfl, rfl⟩
  rw [outcome.1] at changed
  rw [module, outcome.2]
  rcases renameCallee_cases with ⟨_, unchanged⟩ | ⟨entry, boot, ds, present, started, form⟩
  · rw [unchanged] at changed
    cases changed
  · refine ⟨entry, boot, present, by rw [started], fun apart ordinary => ?_⟩
    rw [form] at changed ⊢
    rcases Renaming.run_cases _ .renameCallee ds m with ⟨_, unchanged⟩ | ⟨distinct, applied, counted⟩
    · rw [unchanged] at changed
      cases changed
    · rw [applied, counted]
      exact calleeRenaming_entryNamed ids o.legible present (bootstrapIn_mem (by rw [← findBootstrap, started])) apart ordinary
        distinct

namespace Launching

def work : Function := outside 2 "work" []

def launch : Function := outside 3 "launch" [work.value.type]

def trap : Function := outside 4 "llvm.trap" []

def start : CallSite :=
  ⟨0, some 0, 1, .number 0, .void, { callee := launch.value, args := [.value [] work.value] }, [], none⟩

def entry : Function where
  id := ⟨1⟩
  symbol := .named "main"
  result := .void
  params := []
  blocks := [{
    id := 0
    ident := .named "entry"
    insts := [⟨1, .number 0, .void, .call "" start.call, []⟩]
    term := ⟨2, .number 0, .void, .ret none, []⟩ }]

def program : Module where
  functions := [entry, work, launch, trap]

def options : Options := { mode := .renameCallee, callee := "b", profile := some ⟨.rust, by simp [Profile.all]⟩ }

theorem entry_name : entry.name = "main" := by apply Ident.shown_named (c := 'm') <;> simp

theorem work_name : work.name = "work" := by apply Ident.shown_named (c := 'w') <;> simp

theorem launch_name : launch.name = "launch" := by apply Ident.shown_named (c := 'l') <;> simp

theorem trap_name : trap.name = "llvm.trap" := by apply Ident.shown_named (c := 'l') <;> simp

theorem launch_ordinary : isIntrinsic launch.name = false := by
  rw [launch_name]
  decide +kernel

theorem entry_ordinary : isIntrinsic entry.name = false := by
  rw [entry_name]
  decide +kernel

theorem work_ordinary : isIntrinsic work.name = false := by
  rw [work_name]
  decide +kernel

section

variable {m : Module}

theorem findBootstrap_of_called (called : m.calledFunction? entry start = some launch)
    (given : m.argumentFunction? entry (.value [] work.value) = some work) :
    findBootstrap m entry = (some ⟨start, work⟩, []) := by
  have sites : entry.callSites = [start] := rfl
  have first : start.arg? 0 = some (.value [] work.value) := rfl
  simp [findBootstrap, sites, bootstrapIn, called, first, launch_ordinary, given]

theorem findRuntimeStart_of_called (called : m.calledFunction? entry start = some launch) :
    findRuntimeStart m entry = some launch := by
  have sites : entry.callSites = [start] := rfl
  simp [findRuntimeStart, sites, called, launch_ordinary]

theorem chain_names (ids : m.symbolIds.Nodup) (chain : entry ∈ m.functions ∧ work ∈ m.functions ∧ launch ∈ m.functions)
    (p : Profile) (callee : String) :
    (calleeRenaming m p callee entry work (some launch)).nameFor entry = p.entryName callee ∧
      (calleeRenaming m p callee entry work (some launch)).nameFor work = p.realCalleeName callee ∧
      (calleeRenaming m p callee entry work (some launch)).nameFor launch =
        (p.runtimeStartName? callee).getD ("launch" ++ "_" ++ callee) := by
  have named := fun f (listed : f ∈ m.functions) => calleeRenaming_nameFor ids listed p callee entry work (some launch)
  refine ⟨?_, ?_, ?_⟩
  · have special := @specialNames_entry p callee entry work (some launch) (by decide)
    simp [named entry chain.1, entry_ordinary, special]
  · simp [named work chain.2.1, work_ordinary, specialNames_target]
  · rw [named launch chain.2.2, launch_ordinary]
    cases given : p.runtimeStartName? callee with
    | none =>
      rw [specialNames_other (by decide) (by decide) (by simp [given]), launch_name]
      rfl
    | some name =>
      rw [specialNames_start given rfl (by decide) (by decide)]
      rfl

end

theorem findBootstrap_eq : findBootstrap program entry = (some ⟨start, work⟩, []) := findBootstrap_of_called rfl rfl

theorem findRuntimeStart_eq : findRuntimeStart program entry = some launch := findRuntimeStart_of_called rfl

theorem findFunction_main : program.findFunction "main" = some entry := by
  simp [Module.findFunction, program, entry_name]

theorem distinct : program.symbolIds.Nodup := by decide

theorem new_names : program.functions.map (calleeRenaming program .rust "b" entry work (some launch)).nameFor =
    ["main_callee_rust_b", "callee_b", "_std_rt_lang_start_callee_b", "llvm.trap"] := by
  obtain ⟨first, second, third⟩ := chain_names distinct (m := program) (by simp [program]) .rust "b"
  have intrinsic : isIntrinsic "llvm.trap" = true := by decide +kernel
  have last := calleeRenaming_nameFor distinct (f := trap) (by simp [program]) .rust "b" entry work (some launch)
  simp only [trap_name, intrinsic, if_true] at last
  have listed : program.functions = [entry, work, launch, trap] := rfl
  simp only [listed, List.map_cons, List.map_nil, first, second, third, last]
  rfl

theorem changed : (run Bridge.inProcess () options program).1.2.changed = true := by
  have counted : 0 < (calleeRenaming program .rust "b" entry work (some launch)).count program := by
    have renamed : (calleeRenaming program .rust "b" entry work (some launch)).nameFor entry = "main_callee_rust_b" :=
      (List.cons.inj new_names).1
    refine List.length_pos_of_mem (a := entry) (List.mem_filter.mpr ⟨by simp [program], ?_⟩)
    rw [renamed, entry_name]
    decide
  have same : (run Bridge.inProcess () options program).1.2.changed = (renameCallee .rust "b" program).2.changed := rfl
  have callee : "b".isEmpty = false := by decide
  rw [same]
  simp only [renameCallee, callee, findFunction_main, findBootstrap_eq, findRuntimeStart_eq, Bool.false_eq_true, if_false]
  rw [Renaming.run_of_distinct (new_names ▸ by decide)]
  simpa using counted

end Launching

theorem launching_entry_named :
    EntryNamed .rust "b" Launching.program Launching.entry Launching.work
      (run Bridge.inProcess () Launching.options Launching.program).1.1
      (run Bridge.inProcess () Launching.options Launching.program).1.2.stats.renamed := by
  obtain ⟨entry, boot, present, started, named⟩ := renamed_callee_entry_named Bridge.inProcess ()
    (o := Launching.options) rfl Launching.distinct Launching.changed
  obtain rfl := Option.some.inj (Launching.findFunction_main.symm.trans present)
  rw [Launching.findBootstrap_eq] at started
  obtain rfl := Option.some.inj started
  refine named (by decide) ?_
  rw [Launching.work_name]
  decide +kernel

end CallFusion
