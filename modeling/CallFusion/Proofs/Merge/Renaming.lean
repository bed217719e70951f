import CallFusion.Merge.Pass
import CallFusion.Proofs.Ir.WellFormed

/-!
Names after renaming. Functions are renamed only if their new names are pairwise distinct, so functions never
come to share a name; but globals are not looked at, and a function may take the name of one.
-/

namespace CallFusion

open Ir

namespace Ir.Ident

variable {s : String} {c : Char}

theorem spelled?_eq_none (present : c ∈ s.toList) (digit : c.isDigit = false) (minus : c ≠ '-') (plus : c ≠ '+') :
    spelled? s = none := by
  have kept : c ∈ (if s.startsWith "-" || s.startsWith "+" then (s.drop 1).toString else s).toList := by
    split
    · next signed =>
      have headed : ['-'] <+: s.toList ∨ ['+'] <+: s.toList := by simpa using signed
      have dropped : (s.drop 1).toString.toList = s.toList.drop 1 := by simp
      rw [dropped]
      rcases headed with ⟨rest, form⟩ | ⟨rest, form⟩
      · rw [← form] at present ⊢
        simpa [minus] using present
      · rw [← form] at present ⊢
        simpa [plus] using present
    · exact present
  have mixed : isDigits (if s.startsWith "-" || s.startsWith "+" then (s.drop 1).toString else s) = false := by
    generalize (if s.startsWith "-" || s.startsWith "+" then (s.drop 1).toString else s) = digits at kept
    have refuted : digits.all Char.isDigit = false := by simpa using ⟨c, kept, digit⟩
    rw [isDigits, refuted, Bool.and_false]
  simp only [spelled?, mixed, Bool.false_and, Bool.false_eq_true, if_false]

theorem shown_named (present : c ∈ s.toList) (digit : c.isDigit = false) (minus : c ≠ '-') (plus : c ≠ '+') :
    (named s).shown = s := by
  simp only [shown, reported, spelled?_eq_none present digit minus plus]

theorem shown_ofName (present : c ∈ s.toList) (digit : c.isDigit = false) (minus : c ≠ '-') (plus : c ≠ '+') :
    (ofName s).shown = s := by
  have filled : s.isEmpty = false := by
    have nonempty : s ≠ "" := by
      rintro rfl
      simp at present
    simpa using nonempty
  simp only [ofName, filled, Bool.false_eq_true, if_false, shown_named present digit minus plus]

theorem shown_suffixed (name suffix : String) : (ofName (name ++ "_" ++ suffix)).shown = name ++ "_" ++ suffix := by
  apply shown_ofName (c := '_') <;> simp

end Ir.Ident

def Profile.givenNames (p : Profile) (callee : String) : List String :=
  p.realCalleeName callee :: p.entryName callee :: (p.runtimeStartName? callee).toList

/-- Whether these names are shown as they are; one that reads as a number would be shown in quotes. -/
def Profile.Legible (p : Profile) (callee : String) : Prop :=
  ∀ name ∈ p.givenNames callee, (Ident.ofName name).shown = name

/-- One of the profiles that there are, with a payload of its own. -/
def Profile.Registered (p : Profile) : Prop := ∃ payload, p = { go with payload := payload } ∨ p = { rust with payload := payload }

theorem Profile.registered_of_mem {p : Profile} (listed : p ∈ all) : p.Registered := by
  simp only [all, List.mem_cons, List.not_mem_nil, or_false] at listed
  rcases listed with rfl | rfl
  · exact ⟨go.payload, .inl rfl⟩
  · exact ⟨rust.payload, .inr rfl⟩

theorem Options.registered (o : Options) : o.effectiveProfile.Registered := by
  have known : (if o.mode = .replaceStub then .go else (o.profile.map (·.toProfile)).getD .go : Profile).Registered := by
    apply Profile.registered_of_mem
    split
    · exact List.mem_cons_self
    · cases given : o.profile with
      | none => exact List.mem_cons_self
      | some p => exact p.known
  unfold effectiveProfile
  dsimp only
  generalize (if o.mode = .replaceStub then .go else (o.profile.map (·.toProfile)).getD .go : Profile) = base at known
  by_cases standard : o.payload.size = 0
  · rw [if_pos standard]
    exact known
  · rw [if_neg standard]
    obtain ⟨_, rfl | rfl⟩ := known
    · exact ⟨o.payload, .inl rfl⟩
    · exact ⟨o.payload, .inr rfl⟩

/-- What the profiles that there are put in front of a callee's name, for the functions of its entry chain. -/
def Profile.stems : List String := ["main_2nd_for", "main_for", "callee", "main_callee_rust", "_std_rt_lang_start_callee"]

theorem Profile.Registered.exists_stem {p : Profile} (registered : p.Registered) {callee name : String}
    (given : name ∈ p.givenNames callee) : ∃ stem ∈ stems, name = stem ++ "_" ++ callee := by
  obtain ⟨payload, rfl | rfl⟩ := registered
  · have listed : name = "main_2nd_for_" ++ callee ∨ name = "main_for_" ++ callee := by
      simpa [Profile.givenNames, realCalleeName, entryName, runtimeStartName?, go] using given
    rcases listed with rfl | rfl
    · exact ⟨"main_2nd_for", by simp [stems], rfl⟩
    · exact ⟨"main_for", by simp [stems], rfl⟩
  · have listed : name = "callee_" ++ callee ∨ name = "main_callee_rust_" ++ callee ∨
        name = "_std_rt_lang_start_callee_" ++ callee := by
      simpa [Profile.givenNames, realCalleeName, entryName, runtimeStartName?, rust] using given
    rcases listed with rfl | rfl | rfl
    · exact ⟨"callee", by simp [stems], rfl⟩
    · exact ⟨"main_callee_rust", by simp [stems], rfl⟩
    · exact ⟨"_std_rt_lang_start_callee", by simp [stems], rfl⟩

namespace Profile.Registered

variable {p : Profile} (registered : p.Registered) (callee : String)

include registered

theorem merged_shown : (Ident.ofName (p.mergedCalleeName callee)).shown = p.mergedCalleeName callee := by
  have form : p.mergedCalleeName callee = "NewCallee" ++ "_" ++ callee := by
    obtain ⟨payload, rfl | rfl⟩ := registered <;> rfl
  rw [form]
  exact Ident.shown_suffixed _ _

theorem names_apart : p.mergedCalleeName callee ≠ copyName ∧
    ∀ name ∈ p.givenNames callee, p.mergedCalleeName callee ≠ name ∧ copyName ≠ name := by
  have merged : p.mergedCalleeName callee = "NewCallee_" ++ callee := by
    obtain ⟨payload, rfl | rfl⟩ := registered <;> rfl
  rw [merged]
  refine ⟨by simp [copyName, String.ext_iff], fun name given => ?_⟩
  obtain ⟨stem, listed, rfl⟩ := registered.exists_stem given
  simp only [stems, List.mem_cons, List.not_mem_nil, or_false] at listed
  rcases listed with rfl | rfl | rfl | rfl | rfl <;> simp [copyName, String.ext_iff]

theorem receive_ne_send : p.marshalling.receive ≠ p.marshalling.send := by
  obtain ⟨payload, rfl | rfl⟩ := registered
  · exact (by decide : go.marshalling.receive ≠ go.marshalling.send)
  · exact (by decide : rust.marshalling.receive ≠ rust.marshalling.send)

end Profile.Registered

theorem Options.legible (o : Options) : o.effectiveProfile.Legible o.callee := by
  intro name given
  obtain ⟨stem, _, rfl⟩ := o.registered.exists_stem given
  exact Ident.shown_suffixed stem o.callee

namespace Renaming

variable {r : Renaming} {m : Module} {f : Function}

theorem clashIn_eq_none_iff (r : Renaming) (taken : List (String × Function)) (fs : List Function) :
    r.clashIn taken fs = none ↔ (fs.map r.nameFor).Nodup ∧ ∀ f ∈ fs, ∀ e ∈ taken, e.1 ≠ r.nameFor f := by
  induction fs generalizing taken with
  | nil => simp [clashIn]
  | cons f fs ih =>
    rw [clashIn]
    cases found : taken.find? (·.1 == r.nameFor f) with
    | some e =>
      have listed := List.mem_of_find?_eq_some found
      have same : e.1 = r.nameFor f := by simpa using List.find?_some found
      simp only [reduceCtorEq, false_iff, not_and]
      intro _ apart
      exact apart f List.mem_cons_self e listed same
    | none =>
      have apart : ∀ e ∈ taken, e.1 ≠ r.nameFor f := by simpa using found
      simp only [ih, List.map_cons, List.nodup_cons, List.forall_mem_cons, List.mem_map, not_exists, not_and]
      grind

/-- Renaming goes ahead exactly when the new names of the functions are pairwise distinct. -/
theorem clash?_eq_none_iff (r : Renaming) (m : Module) : r.clash? m = none ↔ (m.functions.map r.nameFor).Nodup := by
  rw [clash?, clashIn_eq_none_iff]
  simp

theorem nameFor_chosen {fs : List Function} (ids : (fs.map (·.id)).Nodup) (listed : f ∈ fs) (chosen : Function → Bool)
    (given : Function → String) :
    nameFor ((fs.filter chosen).map fun g => (g.id, given g)) f = if chosen f then given f else f.name := by
  have only : ∀ g ∈ fs, g.id = f.id → g = f := fun g member same => List.inj_on_of_nodup_map ids member listed same
  have looked : List.find? (fun e => e.1 == f.id) ((fs.filter chosen).map fun g => (g.id, given g)) =
      if chosen f then some (f.id, given f) else none := by
    rw [List.find?_map]
    cases found : (fs.filter chosen).find? ((fun e => e.1 == f.id) ∘ fun g => (g.id, given g)) with
    | none =>
      have absent : f ∉ fs.filter chosen := fun member => by simpa using List.find?_eq_none.mp found f member
      have passed : chosen f = false := by simpa [listed] using absent
      simp [passed]
    | some g =>
      obtain ⟨member, taken⟩ := List.mem_filter.mp (List.mem_of_find?_eq_some found)
      have same : g.id = f.id := by simpa using List.find?_some found
      obtain rfl := only g member same
      simp [taken]
  rw [nameFor, looked]
  split <;> rfl

def Legible (r : Renaming) (m : Module) : Prop :=
  ∀ f ∈ m.functions, r.nameFor f = f.name ∨ (Ident.ofName (r.nameFor f)).shown = r.nameFor f

theorem name_identFor (legible : r.Legible m) (listed : f ∈ m.functions) :
    { f with symbol := r.identFor f }.name = r.nameFor f := by
  change (r.identFor f).shown = _
  by_cases kept : r.nameFor f = f.name
  · rw [identFor, if_pos kept, kept]
    rfl
  · rw [identFor, if_neg kept]
    exact (legible f listed).resolve_left kept

theorem applyTo_names (legible : r.Legible m) :
    (r.applyTo m).functions.map (·.name) = m.functions.map r.nameFor := by
  rw [applyTo, List.map_map]
  apply List.map_congr_left
  intro f listed
  exact name_identFor legible listed

theorem run_of_distinct (distinct : (m.functions.map r.nameFor).Nodup) (mode : Mode) (found : Diagnostics) :
    r.run mode found m =
      (r.applyTo m, { mode := mode, changed := r.count m > 0, diagnostics := found, stats := { renamed := r.count m } }) := by
  simp only [run, (clash?_eq_none_iff r m).mpr distinct]

/-- A renaming is refused or carried out whole. -/
theorem run_cases (r : Renaming) (mode : Mode) (found : Diagnostics) (m : Module) :
    ((r.run mode found m).1 = m ∧ (r.run mode found m).2.changed = false) ∨
      (m.functions.map r.nameFor).Nodup ∧ (r.run mode found m).1 = r.applyTo m ∧
        (r.run mode found m).2.stats.renamed = r.count m := by
  by_cases distinct : (m.functions.map r.nameFor).Nodup
  · rw [run_of_distinct distinct]
    exact .inr ⟨distinct, rfl, rfl⟩
  · obtain ⟨clash, found⟩ := Option.ne_none_iff_exists'.mp fun free => distinct ((clash?_eq_none_iff r m).mp free)
    simp only [run, found, true_and, true_or]

end Renaming

section

variable {m : Module} {f : Function}

theorem callerRenaming_nameFor (distinct : m.symbolIds.Nodup) (listed : f ∈ m.functions) (caller : String) :
    (callerRenaming m caller).nameFor f = if isIntrinsic f.name then f.name else f.name ++ "_" ++ caller := by
  rw [callerRenaming, Renaming.nameFor_chosen distinct.of_append_left listed]
  cases isIntrinsic f.name <;> rfl

theorem calleeRenaming_nameFor (distinct : m.symbolIds.Nodup) (listed : f ∈ m.functions) (p : Profile) (callee : String)
    (entry target : Function) (start : Option Function) :
    (calleeRenaming m p callee entry target start).nameFor f =
      if isIntrinsic f.name then f.name
      else (((specialNames p callee entry target start).find? (·.1 == f.id)).map (·.2)).getD (f.name ++ "_" ++ callee) := by
  rw [calleeRenaming, Renaming.nameFor_chosen distinct.of_append_left listed]
  cases isIntrinsic f.name <;> rfl

theorem specialNames_given {p : Profile} {callee : String} {entry target : Function} {start : Option Function}
    {e : SymbolId × String} (listed : e ∈ specialNames p callee entry target start) : e.2 ∈ p.givenNames callee := by
  simp only [specialNames, List.mem_cons] at listed
  rcases listed with rfl | rfl | last
  · simp [Profile.givenNames]
  · simp [Profile.givenNames]
  · split at last
    · next named =>
      obtain rfl := List.mem_singleton.mp last
      simp [Profile.givenNames, named]
    · cases last

/-- A name that renaming gives to a function: its own with the suffix, or one for the entry chain. -/
def GivenTo (names : List String) (suffix : String) (f : Function) (name : String) : Prop :=
  isIntrinsic f.name = false ∧ (name = f.name ++ "_" ++ suffix ∨ name ∈ names)

theorem callerRenaming_given (distinct : m.symbolIds.Nodup) (listed : f ∈ m.functions) (caller : String) :
    (callerRenaming m caller).nameFor f = f.name ∨ GivenTo [] caller f ((callerRenaming m caller).nameFor f) := by
  rw [callerRenaming_nameFor distinct listed]
  cases ordinary : isIntrinsic f.name with
  | true => exact .inl rfl
  | false => exact .inr ⟨ordinary, .inl rfl⟩

theorem calleeRenaming_given (distinct : m.symbolIds.Nodup) (listed : f ∈ m.functions) (p : Profile) (callee : String)
    (entry target : Function) (start : Option Function) :
    (calleeRenaming m p callee entry target start).nameFor f = f.name ∨
      GivenTo (p.givenNames callee) callee f ((calleeRenaming m p callee entry target start).nameFor f) := by
  rw [calleeRenaming_nameFor distinct listed]
  cases ordinary : isIntrinsic f.name with
  | true => exact .inl rfl
  | false =>
    refine .inr ⟨ordinary, ?_⟩
    cases found : (specialNames p callee entry target start).find? (·.1 == f.id) with
    | none => exact .inl rfl
    | some e => exact .inr (specialNames_given (List.mem_of_find?_eq_some found))

theorem legible_of_given {r : Renaming} {names : List String} {suffix : String}
    (shown : ∀ name ∈ names, (Ident.ofName name).shown = name)
    (given : ∀ f ∈ m.functions, r.nameFor f = f.name ∨ GivenTo names suffix f (r.nameFor f)) : r.Legible m := by
  intro f listed
  refine (given f listed).imp_right ?_
  rintro ⟨_, suffixed | special⟩
  · rw [suffixed]
    exact Ident.shown_suffixed f.name suffix
  · exact shown _ special

theorem callerRenaming_legible (distinct : m.symbolIds.Nodup) (caller : String) : (callerRenaming m caller).Legible m :=
  legible_of_given (List.forall_mem_nil _) fun _ listed => callerRenaming_given distinct listed caller

theorem calleeRenaming_legible (distinct : m.symbolIds.Nodup) {p : Profile} {callee : String} (shown : p.Legible callee)
    (entry target : Function) (start : Option Function) : (calleeRenaming m p callee entry target start).Legible m :=
  legible_of_given shown fun _ listed => calleeRenaming_given distinct listed p callee entry target start

end

/-- A name that a run in one of the renaming modes gives to a function. -/
def Options.Gives (o : Options) (f : Function) (name : String) : Prop :=
  match o.mode with
  | .renameCaller => GivenTo [] o.caller f name
  | .renameCallee => GivenTo (o.effectiveProfile.givenNames o.callee) o.callee f name
  | _ => False

def Ir.Module.symbolNames (m : Module) : List String := m.functions.map (·.name) ++ m.globals.map (·.name)

variable {σ : Type}

theorem renameCallee_cases {p : Profile} {callee : String} {m : Module} :
    ((renameCallee p callee m).1 = m ∧ (renameCallee p callee m).2.changed = false) ∨
      ∃ entry boot ds, m.findFunction "main" = some entry ∧ findBootstrap m entry = (some boot, ds) ∧
        renameCallee p callee m =
          (calleeRenaming m p callee entry boot.target (findRuntimeStart m entry)).run .renameCallee ds m := by
  unfold renameCallee
  dsimp only
  split
  · exact .inl ⟨rfl, rfl⟩
  · split
    · exact .inl ⟨rfl, rfl⟩
    · next entry present =>
      split
      · exact .inl ⟨rfl, rfl⟩
      · next boot ds found => exact .inr ⟨entry, boot, ds, present, found, rfl⟩

theorem run_renameCaller (bridge : Bridge σ) (state : σ) {o : Options} (mode : o.mode = .renameCaller) (m : Module) :
    (run bridge state o m).1.1 = (renameCaller o.caller m).1 ∧
      (run bridge state o m).1.2.diagnostics = (renameCaller o.caller m).2.diagnostics := by
  simp only [run, runMode, mode]
  exact ⟨rfl, List.append_nil _⟩

theorem run_renameCallee (bridge : Bridge σ) (state : σ) {o : Options} (mode : o.mode = .renameCallee) (m : Module) :
    (run bridge state o m).1.1 = (renameCallee o.effectiveProfile o.callee m).1 ∧
      (run bridge state o m).1.2.changed = (renameCallee o.effectiveProfile o.callee m).2.changed := by
  simp only [run, runMode, mode]
  exact ⟨rfl, rfl⟩

theorem run_renaming (bridge : Bridge σ) (state : σ) {o : Options} (mode : o.mode = .renameCaller ∨ o.mode = .renameCallee)
    {m : Module} (ids : m.symbolIds.Nodup) :
    (run bridge state o m).1.1 = m ∨
      ∃ r : Renaming, r.Legible m ∧ (m.functions.map r.nameFor).Nodup ∧ (run bridge state o m).1.1 = r.applyTo m ∧
        ∀ f ∈ m.functions, r.nameFor f = f.name ∨ o.Gives f (r.nameFor f) := by
  rcases mode with mode | mode
  · have given := fun f (listed : f ∈ m.functions) => callerRenaming_given ids listed o.caller
    rw [(run_renameCaller bridge state mode m).1, renameCaller]
    split
    · exact .inl rfl
    · rcases (callerRenaming m o.caller).run_cases .renameCaller [] m with ⟨kept, _⟩ | ⟨distinct, applied, _⟩
      · exact .inl kept
      · refine .inr ⟨_, callerRenaming_legible ids o.caller, distinct, applied, fun f listed => ?_⟩
        simpa only [Options.Gives, mode] using given f listed
  · rw [(run_renameCallee bridge state mode m).1]
    rcases renameCallee_cases with ⟨kept, _⟩ | ⟨entry, boot, ds, _, _, form⟩
    · exact .inl kept
    · have given := fun f (listed : f ∈ m.functions) => calleeRenaming_given ids listed o.effectiveProfile o.callee entry
        boot.target (findRuntimeStart m entry)
      rw [form]
      rcases Renaming.run_cases _ .renameCallee ds m with ⟨kept, _⟩ | ⟨distinct, applied, _⟩
      · exact .inl kept
      · refine .inr ⟨_, calleeRenaming_legible ids o.legible _ _ _, distinct, applied, fun f listed => ?_⟩
        simpa only [Options.Gives, mode] using given f listed

/-- After a run in a renaming mode the functions have distinct names, of which the new ones are as the mode
gives them; functions and globals together have distinct names exactly if no new name is that of a global. -/
theorem renamed_distinct_iff (bridge : Bridge σ) (state : σ) {o : Options}
    (mode : o.mode = .renameCaller ∨ o.mode = .renameCallee) {m : Module} (ids : m.symbolIds.Nodup)
    (distinct : m.symbolNames.Nodup) :
    ((run bridge state o m).1.1.functions.map (·.name)).Nodup ∧
      (∀ g ∈ (run bridge state o m).1.1.functions, ∃ f ∈ m.functions, g.id = f.id ∧ (g.name = f.name ∨ o.Gives f g.name)) ∧
      ((run bridge state o m).1.1.symbolNames.Nodup ↔
        ∀ g ∈ (run bridge state o m).1.1.functions, g.name ∉ m.functions.map (·.name) → g.name ∉ m.globals.map (·.name)) := by
  have old : ∀ name ∈ m.functions.map (·.name), name ∉ m.globals.map (·.name) := fun name inFunctions inGlobals =>
    (List.nodup_append.mp distinct).2.2 name inFunctions name inGlobals rfl
  have whole : ∀ n : Module, n.globals = m.globals → (n.functions.map (·.name)).Nodup →
      (n.symbolNames.Nodup ↔ ∀ g ∈ n.functions, g.name ∉ m.functions.map (·.name) → g.name ∉ m.globals.map (·.name)) := by
    intro n globals functions
    rw [Module.symbolNames, globals, List.nodup_append]
    constructor
    · rintro ⟨_, _, apart⟩ g listed _ taken
      exact apart g.name (List.mem_map.mpr ⟨g, listed, rfl⟩) g.name taken rfl
    · intro avoided
      refine ⟨functions, distinct.of_append_right, ?_⟩
      rintro _ inFunctions _ inGlobals rfl
      obtain ⟨g, listed, rfl⟩ := List.mem_map.mp inFunctions
      by_cases kept : g.name ∈ m.functions.map (·.name)
      · exact old _ kept inGlobals
      · exact avoided g listed kept inGlobals
  rcases run_renaming bridge state mode ids with kept | ⟨r, shown, free, applied, given⟩
  · rw [kept]
    have functions : (m.functions.map (·.name)).Nodup := distinct.of_append_left
    exact ⟨functions, fun g listed => ⟨g, listed, rfl, .inl rfl⟩, whole m rfl functions⟩
  · rw [applied]
    have functions : ((r.applyTo m).functions.map (·.name)).Nodup := by
      rw [Renaming.applyTo_names shown]
      exact free
    refine ⟨functions, fun g listed => ?_, whole (r.applyTo m) rfl functions⟩
    obtain ⟨f, member, rfl⟩ := List.mem_map.mp listed
    rw [Renaming.name_identFor shown member]
    exact ⟨f, member, rfl, given f member⟩

/-- A declared function `f` beside a global of the given name. -/
def Shadowing.program (global : String) : Module where
  globals := [{ id := ⟨1⟩, symbol := .named global, content := .int 32 }]
  functions := [{ id := ⟨2⟩, symbol := .named "f", result := .void, params := [] }]

theorem Shadowing.functions_names (global : String) : (program global).functions.map (·.name) = ["f"] := by
  have shown : (Ident.named "f").shown = "f" := by apply Ident.shown_named (c := 'f') <;> simp
  exact congrArg (fun name => [name]) shown

theorem Shadowing.renamed (global : String) :
    (run Bridge.inProcess () { mode := .renameCaller, caller := "a" } (Shadowing.program global)).1.1.functions.map
        (·.name) = ["f_a"] ∧
      (run Bridge.inProcess () { mode := .renameCaller, caller := "a" } (Shadowing.program global)).1.1.globals =
        (Shadowing.program global).globals := by
  have ids : (program global).symbolIds.Nodup := by simp [Module.symbolIds, program]
  have given : (program global).functions.map (callerRenaming (program global) "a").nameFor = ["f_a"] := by
    rw [List.map_congr_left fun f listed => callerRenaming_nameFor ids listed "a"]
    change ((program global).functions.map (·.name)).map (fun name => if isIntrinsic name then name else name ++ "_" ++ "a") = _
    rw [functions_names]
    decide +kernel
  rw [(run_renameCaller Bridge.inProcess () rfl _).1, renameCaller, if_neg (by decide),
    Renaming.run_of_distinct (by rw [given]; decide)]
  exact ⟨(Renaming.applyTo_names (callerRenaming_legible ids "a")).trans given, rfl⟩

theorem renamed_beside_global :
    (run Bridge.inProcess () { mode := .renameCaller, caller := "a" } (Shadowing.program "g")).1.1.symbolNames.Nodup := by
  have shown : (Ident.named "g").shown = "g" := by apply Ident.shown_named (c := 'g') <;> simp
  have globals : (Shadowing.program "g").globals.map (·.name) = ["g"] := congrArg (fun name => [name]) shown
  have distinct : (Shadowing.program "g").symbolNames.Nodup := by
    rw [Module.symbolNames, Shadowing.functions_names, globals]
    decide
  refine (renamed_distinct_iff Bridge.inProcess () (o := { mode := .renameCaller, caller := "a" }) (.inl rfl) (by decide)
    distinct).2.2.mpr fun g listed _ => ?_
  have named : g.name ∈ ["f_a"] := (Shadowing.renamed "g").1 ▸ List.mem_map.mpr ⟨g, listed, rfl⟩
  rw [globals, List.mem_singleton.mp named]
  decide

/-- The name that a suffix makes may be that of a global, and the function takes it all the same. -/
theorem function_named_like_global :
    (Shadowing.program "f_a").symbolNames.Nodup ∧
      ¬ (run Bridge.inProcess () { mode := .renameCaller, caller := "a" } (Shadowing.program "f_a")).1.1.symbolNames.Nodup := by
  have shown : (Ident.named "f_a").shown = "f_a" := by apply Ident.shown_named (c := 'f') <;> simp
  have globals : (Shadowing.program "f_a").globals.map (·.name) = ["f_a"] := congrArg (fun name => [name]) shown
  obtain ⟨names, kept⟩ := Shadowing.renamed "f_a"
  rw [Module.symbolNames, Module.symbolNames, Shadowing.functions_names, names, kept, globals]
  decide

end CallFusion
