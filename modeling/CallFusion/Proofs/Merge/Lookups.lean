import CallFusion.Inspection
import CallFusion.Proofs.Ir.Casts
import CallFusion.Proofs.Merge.Search

/-!
Lookups that come to an end. A search asks for the callees of call sites one after another, until one of them pleases it.
It ends if there is an end to the casts in front of each callee that it asks for, which those of a circle have not.
-/

namespace CallFusion

open Ir

variable {σ : Type}

namespace Ir.Function

/-- No callee runs in a circle. -/
def Untangled (f : Function) : Prop := ∀ site ∈ f.callSites, ¬ f.Circular site.call.callee

/-- No first argument of a call runs in a circle. -/
def UntangledArgs (f : Function) : Prop :=
  ∀ site ∈ f.callSites, ∀ attrs v, site.arg? 0 = some (.value attrs v) → ¬ f.Circular v

end Ir.Function

theorem calledFunction?_of_endsAt (m : Module) {f : Function} {site : CallSite} {x : Value}
    (ends : f.EndsAt site.call.callee x) : m.calledFunction? f site = x.symbol?.bind m.function? := by
  rw [Module.calledFunction?, Function.calledId?, Function.stripCasts?_eq_some_iff.mpr ends, Option.bind_some]

namespace Locator

/-- A search by name comes to an end, at the site that passes or behind the last one. -/
inductive MatchEnds (bridge : Bridge σ) (m : Module) (f : Function) (kind : CallKind) (test : CallSite → String → Bool) :
    List CallSite → Locator σ → Prop
  | done {l : Locator σ} : MatchEnds bridge m f kind test [] l
  | skipped {site : CallSite} {rest : List CallSite} {l : Locator σ} (other : site.accepts kind = false)
      (on : MatchEnds bridge m f kind test rest l) : MatchEnds bridge m f kind test (site :: rest) l
  | found {site : CallSite} {rest : List CallSite} {l l' : Locator σ} {name : String} (accepted : site.accepts kind = true)
      (resolves : f.Resolves site.call.callee) (named : (calleeName bridge m f site).run l = (name, l'))
      (passes : (name != "" && test site name) = true) : MatchEnds bridge m f kind test (site :: rest) l
  | missed {site : CallSite} {rest : List CallSite} {l l' : Locator σ} {name : String} (accepted : site.accepts kind = true)
      (resolves : f.Resolves site.call.callee) (named : (calleeName bridge m f site).run l = (name, l'))
      (fails : (name != "" && test site name) = false) (on : MatchEnds bridge m f kind test rest l') :
      MatchEnds bridge m f kind test (site :: rest) l

variable {bridge : Bridge σ} {m : Module} {f : Function} {kind : CallKind} {test : CallSite → String → Bool}
  {sites : List CallSite} {l : Locator σ}

theorem matchEnds_of_resolves (resolves : ∀ site ∈ sites, f.Resolves site.call.callee) :
    MatchEnds bridge m f kind test sites l := by
  induction sites generalizing l with
  | nil => exact .done
  | cons site rest ih =>
    have here := resolves site List.mem_cons_self
    have on : ∀ l, MatchEnds bridge m f kind test rest l := fun l =>
      ih fun other listed => resolves other (List.mem_cons_of_mem _ listed)
    cases accepted : site.accepts kind with
    | false => exact .skipped accepted (on l)
    | true =>
      obtain ⟨name, l', named⟩ : ∃ name l', (calleeName bridge m f site).run l = (name, l') := ⟨_, _, rfl⟩
      cases answer : name != "" && test site name with
      | true => exact .found accepted here named answer
      | false => exact .missed accepted here named answer (on l')

theorem resolves_of_matchEnds (ends : MatchEnds bridge m f .any (fun _ _ => false) sites l) :
    ∀ site ∈ sites, f.Resolves site.call.callee := by
  generalize never : (fun _ _ => false : CallSite → String → Bool) = test at ends
  induction ends with
  | done => exact fun _ listed => nomatch listed
  | skipped other => cases other
  | found _ _ _ passes =>
    subst never
    simp at passes
  | missed _ resolves _ _ _ ih => exact List.forall_mem_cons.mpr ⟨resolves, ih⟩

/-- All searches in a function come to an end exactly if none of its callees runs in a circle. -/
theorem matchEnds_iff : (∀ kind test, MatchEnds bridge m f kind test f.callSites l) ↔ f.Untangled := by
  constructor
  · intro ends site listed
    exact Function.resolves_iff.mp (resolves_of_matchEnds (ends .any fun _ _ => false) site listed)
  · intro untangled kind test
    exact matchEnds_of_resolves fun site listed => Function.resolves_iff.mpr (untangled site listed)

end Locator

/-- The search for a start-up call comes to an end. It looks at first arguments of calls to functions that may start one. -/
inductive BootstrapEnds (m : Module) (entry : Function) : List CallSite → Prop
  | done : BootstrapEnds m entry []
  | passed {site : CallSite} {rest : List CallSite} (resolves : entry.Resolves site.call.callee)
      (idle : ∀ callee, m.calledFunction? entry site = some callee → isIntrinsic callee.name = false → site.arg? 0 = none)
      (on : BootstrapEnds m entry rest) : BootstrapEnds m entry (site :: rest)
  | asked {site : CallSite} {rest : List CallSite} {callee : Function} {first : Argument Value}
      (resolves : entry.Resolves site.call.callee) (called : m.calledFunction? entry site = some callee)
      (starts : isIntrinsic callee.name = false) (given : site.arg? 0 = some first)
      (behind : ∀ attrs v, first = .value attrs v → entry.Resolves v)
      (on : m.argumentFunction? entry first = none → BootstrapEnds m entry rest) : BootstrapEnds m entry (site :: rest)

theorem bootstrapEnds_of_resolves {m : Module} {entry : Function} {sites : List CallSite}
    (resolves : ∀ site ∈ sites, entry.Resolves site.call.callee)
    (behind : ∀ site ∈ sites, ∀ attrs v, site.arg? 0 = some (.value attrs v) → entry.Resolves v) :
    BootstrapEnds m entry sites := by
  induction sites with
  | nil => exact .done
  | cons site rest ih =>
    have here := resolves site List.mem_cons_self
    have on : BootstrapEnds m entry rest :=
      ih (fun other listed => resolves other (List.mem_cons_of_mem _ listed))
        fun other listed => behind other (List.mem_cons_of_mem _ listed)
    by_cases asked : ∃ callee first, m.calledFunction? entry site = some callee ∧ isIntrinsic callee.name = false ∧
        site.arg? 0 = some first
    · obtain ⟨callee, first, called, starts, given⟩ := asked
      exact .asked here called starts given (fun attrs v value => behind site List.mem_cons_self attrs v (value ▸ given))
        fun _ => on
    · refine .passed here (fun callee called starts => Option.eq_none_iff_forall_ne_some.mpr fun first given => ?_) on
      exact asked ⟨callee, first, called, starts, given⟩

section Rpc

variable (bridge : Bridge σ) (m : Module) (p : Profile) (callee : String)

/-- The search for the stub call through functions comes to an end. -/
inductive RpcEnds : List Function → Locator σ → Prop
  | done {l : Locator σ} : RpcEnds [] l
  | tried {f : Function} {fs : List Function} {l l' : Locator σ} {site : Option CallSite}
      (ends : Locator.MatchEnds bridge m f .any (isRpcFor m f p callee) f.callSites l)
      (answer : (Locator.findMatch bridge m f .any (isRpcFor m f p callee)).run l = (site, l'))
      (on : site = none → RpcEnds fs l') : RpcEnds (f :: fs) l

/-- The search for the stub call comes to an end, that for the start-up call of a renamed caller included. -/
def FindRpcEnds (caller : String) (l : Locator σ) : Prop :=
  (caller.isEmpty = false → ∀ entry, m.findFunction ("main_" ++ caller) = some entry → BootstrapEnds m entry entry.callSites) ∧
    RpcEnds bridge m p callee (callerCandidates m p caller) l

variable {bridge m p callee}

theorem rpcEnds_of_untangled {fs : List Function} (untangled : ∀ f ∈ fs, f.Untangled) {l : Locator σ} :
    RpcEnds bridge m p callee fs l := by
  induction fs generalizing l with
  | nil => exact .done
  | cons f fs ih =>
    obtain ⟨first, rest⟩ := List.forall_mem_cons.mp untangled
    exact .tried (Locator.matchEnds_iff.mpr first _ _) rfl fun _ => ih rest

end Rpc

/-- A listing comes to an end. It has a row for each call site of each function. -/
def ListingEnds (m : Module) : Prop := ∀ f ∈ m.functions, ∀ site ∈ f.callSites, f.Resolves site.call.callee

/-- Looking through casts has an end, and with it the lookups of callees, exactly where no casts run in a circle. They do not
where control comes and definitions stand ahead of their uses. -/
theorem lookups_end_iff (bridge : Bridge σ) (m : Module) :
    (∀ (f : Function) (v : Value), (f.Resolves v ↔ ¬ f.Circular v) ∧ ∀ x, f.stripCasts? v = some x ↔ f.EndsAt v x) ∧
    (∀ (f : Function) (site : CallSite) (x : Value), f.EndsAt site.call.callee x →
      m.calledFunction? f site = x.symbol?.bind m.function?) ∧
    (∀ (f : Function) (l : Locator σ), (∀ kind test, Locator.MatchEnds bridge m f kind test f.callSites l) ↔ f.Untangled) ∧
    (ListingEnds m ↔ ∀ f ∈ m.functions, f.Untangled) ∧
    ((∀ f ∈ m.functions, f.Untangled ∧ f.UntangledArgs) →
      (∀ f ∈ m.functions, BootstrapEnds m f f.callSites) ∧ ∀ p caller callee l, FindRpcEnds bridge m p callee caller l) ∧
    ∀ (f : Function) (debug : Bool), f.localIds.Nodup → f.Dominated debug → ∀ trail b, f.Walk trail b →
      ∀ site ∈ b.callSites, ∀ o ∈ (Operation.call "" site.call).operands, o.debug = false → ¬ f.Circular o.value := by
  have ends : ∀ {f : Function} {v : Value}, ¬ f.Circular v → f.Resolves v := Function.resolves_iff.mpr
  refine ⟨fun f v => ⟨Function.resolves_iff, fun x => Function.stripCasts?_eq_some_iff⟩,
    fun f site x => calledFunction?_of_endsAt m, fun f l => Locator.matchEnds_iff, ?_, fun untangled => ?_, ?_⟩
  · exact forall₂_congr fun f _ => forall₂_congr fun site _ => Function.resolves_iff
  · have bootstrap : ∀ f ∈ m.functions, BootstrapEnds m f f.callSites := fun f member =>
      bootstrapEnds_of_resolves (fun site listed => ends ((untangled f member).1 site listed))
        fun site listed attrs v given => ends ((untangled f member).2 site listed attrs v given)
    refine ⟨bootstrap, fun p caller callee l => ⟨fun _ entry found => bootstrap entry (findFunction_mem found).1, ?_⟩⟩
    exact rpcEnds_of_untangled fun f candidate => (untangled f (callerCandidates_mem candidate)).1
  · intro f debug numbered dominated trail b walk site found o used code
    exact Function.resolves_iff.mp (Function.resolves_of_dominated numbered dominated walk found used code)

namespace Tangle

def pointer : Ty := .pointer (.func .void [] false) 0

/-- One of two casts of each other. -/
def cast (id other : LocalId) (name : String) : Instruction :=
  ⟨id, .named name, pointer, .cast .bitcast (.local other pointer) pointer, []⟩

def site : CallSite := ⟨2, some 2, 5, .number 0, .void, { callee := .local 3 pointer, args := [] }, [], none⟩

/-- A function whose unreachable block calls a cast of a cast of itself. -/
def tangled : Function where
  id := ⟨0⟩
  symbol := .named "f"
  result := .void
  params := []
  blocks := [
    ⟨0, .named "entry", [], ⟨1, .number 0, .void, .ret none, []⟩⟩,
    ⟨2, .named "lost", [cast 3 4 "a", cast 4 3 "b", ⟨5, .number 0, .void, .call "" site.call, []⟩],
      ⟨6, .number 0, .void, .ret none, []⟩⟩]

/-- Casts of each other have no end, nor has any search that asks for what they call. -/
theorem tangled_never_ends : tangled.localIds.Nodup ∧ tangled.callSites = [site] ∧ ¬ tangled.Resolves site.call.callee ∧
    (∀ test (l : Locator Unit), ¬ Locator.MatchEnds Bridge.inProcess { functions := [tangled] } tangled .any test tangled.callSites l) ∧
    ¬ ListingEnds { functions := [tangled] } := by
  have listed : tangled.callSites = [site] := rfl
  have endless : ¬ tangled.Resolves site.call.callee := by
    refine fun resolves => Function.resolves_iff.mp resolves ⟨_, .refl, ?_⟩
    have there : tangled.Uncasts (.local 3 pointer) (.local 4 pointer) := rfl
    have back : tangled.Uncasts (.local 4 pointer) (.local 3 pointer) := rfl
    exact .tail (.single there) back
  refine ⟨by decide, listed, endless, fun test l ends => ?_, fun ends => ?_⟩
  · rw [listed] at ends
    cases ends with
    | skipped other => cases other
    | found _ resolves => exact endless resolves
    | missed _ resolves => exact endless resolves
  · exact endless (ends tangled List.mem_cons_self site (listed ▸ List.mem_cons_self))

end Tangle

end CallFusion
