import CallFusion.Merge.Pass
import CallFusion.Proofs.Ir.Splice

/-!
What the searches of a run come back with. A site that the locator returns is a call site of the function
it was looked for in, whatever the bridge answers, and the function that holds the stub call is one of
the module.
-/

namespace CallFusion

open Ir

variable {σ : Type}

theorem run_bind {α β : Type} (x : StateM σ α) (f : α → StateM σ β) (s : σ) :
    (x >>= f).run s = (f (x.run s).1).run (x.run s).2 := rfl

theorem run_pure {α : Type} (a : α) (s : σ) : (pure a : StateM σ α).run s = (a, s) := rfl

namespace Locator

theorem matchSites_mem {bridge : Bridge σ} {m : Module} {f : Function} {kind : CallKind}
    {test : CallSite → String → Bool} {sites : List CallSite} {l : Locator σ} {site : CallSite}
    (found : ((matchSites bridge m f kind test sites).run l).1 = some site) : site ∈ sites := by
  induction sites generalizing l with
  | nil => cases found
  | cons first rest ih =>
    simp only [matchSites] at found
    split at found
    · exact List.mem_cons_of_mem _ (ih found)
    · rw [run_bind] at found
      split at found
      · cases found
        exact List.mem_cons_self
      · exact List.mem_cons_of_mem _ (ih found)

theorem findMatch_mem {bridge : Bridge σ} {m : Module} {f : Function} {kind : CallKind}
    {test : CallSite → String → Bool} {l : Locator σ} {site : CallSite}
    (found : ((findMatch bridge m f kind test).run l).1 = some site) : site ∈ f.callSites :=
  matchSites_mem found

theorem findMatch_only {bridge : Bridge σ} {m : Module} {f : Function} {kind : CallKind} {site : CallSite}
    (only : f.callSites = [site]) (accepted : site.accepts kind = true) (test : CallSite → String → Bool)
    {l l' : Locator σ} {name : String} (named : (calleeName bridge m f site).run l = (name, l')) :
    (findMatch bridge m f kind test).run l = (if name != "" && test site name then some site else none, l') := by
  rw [findMatch, only, matchSites, if_neg (by simp [accepted]), run_bind, named]
  dsimp only
  split <;> rfl

theorem logical_known {bridge : Bridge σ} {symbol name : String} {l : Locator σ}
    (known : l.names.find? (·.1 == symbol) = some (symbol, name)) : (logical bridge symbol).run l = (name, l) := by
  simp only [logical, run_bind]
  split
  · next other =>
    cases known.symm.trans other
    rfl
  · next missing => cases known.symm.trans missing

theorem logical_plain {symbol : String} (plain : Symbol.logicalName symbol = symbol)
    (hash : Symbol.stripHash symbol = symbol) {l : Locator σ} (whole : l.stripSuffix symbol = symbol)
    (fresh : l.names.find? (·.1 == symbol) = none) :
    (logical Bridge.inProcess symbol).run l = (symbol, { l with names := (symbol, symbol) :: l.names }) := by
  have kept : Symbol.stripHash (if (none : Option Fault).isSome || (Symbol.logicalName (l.stripSuffix symbol)).isEmpty
      then l.stripSuffix symbol else Symbol.logicalName (l.stripSuffix symbol)) = symbol := by
    simp [whole, plain, hash]
  simp only [logical, run_bind]
  split
  · next known => cases known.symm.trans fresh
  · change (_, { l with names := (symbol, _) :: l.names, diagnostics := l.diagnostics ++ [] }) = _
    rw [List.append_nil]
    exact congrArg (fun name => (name, { l with names := (symbol, name) :: l.names })) kept

end Locator

theorem findCall_mem {bridge : Bridge σ} {m : Module} {f : Function} {name : String} {l : Locator σ} {site : CallSite}
    (found : ((MarshallingPlan.findCall bridge m f name).run l).1 = some site) : site ∈ f.callSites := by
  rw [MarshallingPlan.findCall, run_bind] at found
  split at found
  · next first exceptional =>
    cases found
    exact Locator.findMatch_mem exceptional
  · exact Locator.findMatch_mem found

theorem findFunction_mem {m : Module} {name : String} {f : Function} (found : m.findFunction name = some f) :
    f ∈ m.functions ∧ f.name = name :=
  ⟨List.mem_of_find?_eq_some found, by simpa using List.find?_some found⟩

theorem function?_mem {m : Module} {id : SymbolId} {f : Function} (found : m.function? id = some f) :
    f ∈ m.functions ∧ f.id = id :=
  ⟨List.mem_of_find?_eq_some found, by simpa using List.find?_some found⟩

theorem bootstrapIn_mem {m : Module} {entry : Function} {sites : List CallSite} {boot : Bootstrap}
    (found : (bootstrapIn m entry sites).1 = some boot) : boot.target ∈ m.functions := by
  induction sites with
  | nil => cases found
  | cons site rest ih =>
    simp only [bootstrapIn] at found
    split at found
    · split at found
      · exact ih found
      · split at found
        · next target named =>
          cases found
          unfold Module.argumentFunction? at named
          split at named
          · obtain ⟨_, _, known⟩ := Option.bind_eq_some_iff.mp named
            exact (function?_mem known).1
          · cases named
        · exact ih found
    · exact ih found

theorem distinctBodies_subset (fs : List Function) : ∀ f ∈ distinctBodies fs, f ∈ fs := by
  suffices step : ∀ (rest acc : List Function), ∀ f ∈ rest.foldl (fun acc f =>
      if f.isDeclaration || acc.any (·.id == f.id) then acc else acc ++ [f]) acc, f ∈ acc ∨ f ∈ rest by
    intro f member
    exact (step fs [] f member).resolve_left List.not_mem_nil
  intro rest
  induction rest with
  | nil => exact fun acc f member => .inl member
  | cons g rest ih =>
    intro acc f member
    rcases ih _ f member with kept | later
    · dsimp only at kept
      split at kept
      · exact .inl kept
      · rcases List.mem_append.mp kept with old | new
        · exact .inl old
        · exact .inr (List.mem_singleton.mp new ▸ List.mem_cons_self)
    · exact .inr (List.mem_cons_of_mem _ later)

theorem callerCandidates_mem {m : Module} {p : Profile} {caller : String} {f : Function}
    (candidate : f ∈ callerCandidates m p caller) : f ∈ m.functions := by
  have listed := distinctBodies_subset _ f candidate
  have named : ∀ {name : String}, f ∈ (m.findFunction name).toList → f ∈ m.functions := fun found =>
    (findFunction_mem (Option.mem_toList.mp found)).1
  rcases List.mem_append.mp listed with first | second
  · split at first
    · cases first
    · rcases List.mem_append.mp first with merged | behind
      · exact named merged
      · obtain ⟨boot, started, rfl⟩ := Option.map_eq_some_iff.mp (Option.mem_toList.mp behind)
        obtain ⟨entry, _, found⟩ := Option.bind_eq_some_iff.mp started
        exact bootstrapIn_mem found
  · split at second
    · cases second
    · rcases List.mem_append.mp second with plain | suffixed
      · exact named plain
      · split at suffixed
        · cases suffixed
        · exact named suffixed

theorem rpcIn_mem {bridge : Bridge σ} {m : Module} {p : Profile} {callee : String} {fs : List Function}
    {l : Locator σ} {rpc : RpcSite} (found : ((rpcIn bridge m p callee fs).run l).1 = some rpc) :
    rpc.caller ∈ fs ∧ rpc.site ∈ rpc.caller.callSites := by
  induction fs generalizing l with
  | nil => cases found
  | cons f fs ih =>
    rw [rpcIn, run_bind] at found
    split at found
    · next site matched =>
      cases found
      exact ⟨List.mem_cons_self, Locator.findMatch_mem matched⟩
    · have later := ih found
      exact ⟨List.mem_cons_of_mem _ later.1, later.2⟩

theorem findRpc_mem {bridge : Bridge σ} {m : Module} {p : Profile} {caller callee : String} {l : Locator σ}
    {rpc : RpcSite} (found : ((findRpc bridge m p caller callee).run l).1 = .ok rpc) :
    rpc.caller ∈ m.functions ∧ rpc.site ∈ rpc.caller.callSites := by
  rw [findRpc] at found
  split at found
  · cases found
  · rw [run_bind] at found
    split at found
    · next rpc' located =>
      cases found
      have listed := rpcIn_mem located
      exact ⟨callerCandidates_mem listed.1, listed.2⟩
    · cases found

theorem select?_mem {site : CallSite} {positions : List Nat} {args : List (Argument Value)}
    (selected : CallSite.select? site positions = some args) : ∀ a ∈ args, ∃ old ∈ site.call.args, old.bare = a := by
  induction positions generalizing args with
  | nil =>
    cases selected
    exact List.forall_mem_nil _
  | cons i positions ih =>
    rw [CallSite.select?, List.mapM_cons] at selected
    obtain ⟨arg, here, others⟩ := Option.bind_eq_some_iff.mp selected
    obtain ⟨rest, behind, same⟩ := Option.bind_eq_some_iff.mp others
    cases same
    exact List.forall_mem_cons.mpr ⟨List.mem_map.mp (List.mem_of_getElem? here), ih behind⟩

theorem select?_operands {site : CallSite} {positions : List Nat} {args : List (Argument Value)}
    (selected : CallSite.select? site positions = some args) :
    ∀ o ∈ args.flatMap Argument.operands, o ∈ site.call.argOperands := by
  intro o present
  obtain ⟨a, listed, held⟩ := List.mem_flatMap.mp present
  obtain ⟨old, member, rfl⟩ := select?_mem selected a listed
  exact List.mem_flatMap.mpr ⟨old, member, Argument.operands_bare old ▸ held⟩

end CallFusion
