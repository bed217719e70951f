import Mathlib.Algebra.Ring.Nat
import CallFusion.Proofs.Ir.Addresses
import CallFusion.Proofs.Merge.Agreement
import CallFusion.Proofs.Merge.Naming
import CallFusion.Proofs.Merge.Suffixes
import CallFusion.Proofs.Merge.Unchanged

/-!
Redirecting stub calls one after the other. A run that changes something uses up one call of the stub: the site it
replaces is gone, the call in its place is none, and every other site calls what it called and is passed the same strings.
So there are never more such runs than there were calls of the stub.
-/

namespace CallFusion

open Ir

variable {σ : Type}

/-- A bridge that has one answer for each symbol, whatever it was asked before. -/
def Bridge.Answers (bridge : Bridge σ) (answer : String → Reply) : Prop :=
  ∀ symbol state, ((bridge symbol).run state).1 = answer symbol

/-- The logical name of a symbol under fixed answers. -/
def fixedName (answer : String → Reply) (suffixes : List String) (symbol : String) : String :=
  Locator.firstName (fun symbol => return answer symbol) suffixes () symbol

/-- A locator that has noted no name but the fixed ones. -/
structure Locator.Faithful (answer : String → Reply) (suffixes : List String) (l : Locator σ) : Prop where
  filtered : l.suffixes = suffixes.filter (· != "")
  noted : ∀ symbol name, l.Knows symbol name → name = fixedName answer suffixes symbol

namespace Locator

variable {bridge : Bridge σ} {answer : String → Reply} {suffixes : List String}

theorem new_faithful (answer : String → Reply) (suffixes : List String) (state : σ) :
    (new suffixes state).Faithful answer suffixes :=
  ⟨rfl, fun _ _ known => nomatch known⟩

theorem logical_fixed (answers : bridge.Answers answer) {l : Locator σ} (faithful : l.Faithful answer suffixes)
    (symbol : String) : ((logical bridge symbol).run l).1 = fixedName answer suffixes symbol := by
  cases known : l.names.find? (·.1 == symbol) with
  | some entry =>
    rw [logical_known (knows_of_find? known)]
    exact faithful.noted symbol entry.2 (knows_of_find? known)
  | none =>
    have reply := answers (stripWith l.suffixes symbol) l.bridge
    rw [fixedName, firstName_eq, bare, ← faithful.filtered]
    simp only [logical, run_bind]
    split
    · next other => cases other.symm.trans known
    · exact congrArg (fun r : Reply => Symbol.stripHash (if r.fault.isSome || r.name.isEmpty then _ else r.name)) reply

theorem logical_faithful (answers : bridge.Answers answer) (symbol : String) :
    Keeps (Faithful answer suffixes) (logical bridge symbol) := by
  intro l faithful
  have given := logical_fixed answers faithful symbol
  cases known : l.names.find? (·.1 == symbol) with
  | some entry =>
    rw [logical_known (knows_of_find? known)]
    exact faithful
  | none =>
    obtain ⟨name, found, state, asked⟩ := logical_fresh bridge known
    rw [asked] at given ⊢
    refine ⟨faithful.filtered, fun other known' knows => ?_⟩
    by_cases same : symbol = other
    · rw [Knows, List.find?_cons_of_pos (by simpa using same)] at knows
      cases knows
      exact given
    · rw [Knows, List.find?_cons_of_neg (by simpa using same)] at knows
      exact faithful.noted other known' knows

end Locator

/-- The calls of a stub as a run looks for them: by the logical name of what is called and, if the profile has a name
operand, by the name of the callee. -/
structure StubQuery where
  profile : Profile
  callee : String
  logical : String → String

def Options.stubQuery (o : Options) (answer : String → Reply) : StubQuery :=
  ⟨o.effectiveProfile, o.callee, fixedName answer [o.caller, o.callee]⟩

namespace StubQuery

variable (q : StubQuery) (m : Module) (f : Function)

/-- The logical name of what a call site calls, empty for an indirect call. -/
def calledAs (site : CallSite) : String := ((m.calledFunction? f site).map fun target => q.logical target.name).getD ""

def selects (site : CallSite) : Bool := isRpcFor m f q.profile q.callee site (q.calledAs m f site)

def sites : List LocalId := (f.callSites.filter (q.selects m f)).map (·.id)

def count : Nat := (f.callSites.filter (q.selects m f)).length

def total : Nat := (m.functions.map (q.count m)).sum

variable {q m f}

theorem isRpcFor_eq (p : Profile) (callee : String) (site : CallSite) (logical : String) :
    isRpcFor m f p callee site logical = (p.matchesStub logical && p.nameOperand.all fun i =>
      ((site.arg? i).bind Argument.value?).bind (m.stringOperand? f) == some (Text.bytes callee)) := by
  rw [isRpcFor]
  cases p.nameOperand with
  | none => rfl
  | some i =>
    cases passed : (site.arg? i).bind Argument.value? <;> simp [passed]

theorem selects_congr {n : Module} {g : Function} {s t : CallSite}
    (named : (n.calledFunction? g t).map (·.name) = (m.calledFunction? f s).map (·.name))
    (strings : ∀ i, ((t.arg? i).bind Argument.value?).bind (n.stringOperand? g) =
      ((s.arg? i).bind Argument.value?).bind (m.stringOperand? f)) : q.selects n g t = q.selects m f s := by
  have called : q.calledAs n g t = q.calledAs m f s := by
    have both := congrArg (fun name => (name.map q.logical).getD "") named
    simpa only [calledAs, Option.map_map, Function.comp_def] using both
  rw [selects, selects, isRpcFor_eq, isRpcFor_eq, called]
  cases q.profile.nameOperand with
  | none => rfl
  | some i => rw [Option.all_some, Option.all_some, strings]

section

variable {g h target : Function} {site s t : CallSite} {new : Instruction} {type : Ty}

theorem calledFunction?_setFunction (coherent : m.Coherent) (listed : f ∈ m.functions) (renews : Module.Renews f g)
    {k h : Function} (same : h.calledId? t = k.calledId? s) :
    ((m.setFunction g).calledFunction? h t).map (·.name) = (m.calledFunction? k s).map (·.name) := by
  rw [Module.calledFunction?, Module.calledFunction?, same]
  cases k.calledId? s with
  | none => rfl
  | some id =>
    rw [Option.bind_some, Option.bind_some, Module.function?_setFunction]
    cases found : m.function? id with
    | none => rfl
    | some callee =>
      by_cases here : callee.id = g.id
      · have own := Module.function_eq_of_id coherent.distinct (function?_mem found).1 listed (here.trans renews.id)
        simp [own, renews.id, Function.name, renews.symbol]
      · simp [here]

theorem selects_other (coherent : m.Coherent) (anchored : m.Anchored) (listed : f ∈ m.functions)
    (renews : Module.Renews f g) (k : Function) (s : CallSite) :
    q.selects (m.setFunction g) k s = q.selects m k s := by
  refine selects_congr (calledFunction?_setFunction coherent listed renews rfl) fun i => ?_
  rw [funext (Module.setFunction_stringOperand? (h := k) coherent anchored listed renews)]

theorem count_other (coherent : m.Coherent) (anchored : m.Anchored) (listed : f ∈ m.functions)
    (renews : Module.Renews f g) (k : Function) : q.count (m.setFunction g) k = q.count m k := by
  rw [count, count, funext (selects_other coherent anchored listed renews k)]

theorem selects_exchanged (coherent : m.Coherent) (anchored : m.Anchored) (listed : f ∈ m.functions)
    (renews : Module.Renews f h) (exchanged : f.Exchanged site new target type h) (found : s ∈ f.callSites)
    (same : h.calledId? t = f.calledId? s) (call : t.call = s.call.mapOperands (site.rename type new.value)) :
    q.selects (m.setFunction h) h t = q.selects m f s := by
  refine selects_congr (calledFunction?_setFunction coherent listed renews same) fun i => ?_
  rw [funext (Module.setFunction_stringOperand? (h := h) coherent anchored listed renews)]
  exact exchanged.argumentString found call i

theorem not_selects (called : m.calledFunction? f s = some target)
    (other : q.profile.matchesStub (q.logical target.name) = false) : q.selects m f s = false := by
  rw [selects, isRpcFor_eq, calledAs, called, Option.map_some, Option.getD_some, other, Bool.false_and]

theorem mem_sites_exchanged (coherent : m.Coherent) (anchored : m.Anchored) (listed : f ∈ m.functions)
    (renews : Module.Renews f h) (exchanged : f.Exchanged site new target type h) (known : target ∈ m.functions)
    (other : q.profile.matchesStub (q.logical target.name) = false) (id : LocalId) :
    id ∈ q.sites (m.setFunction h) h ↔ id ∈ q.sites m f ∧ id ≠ site.id := by
  simp only [sites, List.mem_map, List.mem_filter]
  constructor
  · rintro ⟨t, ⟨present, passes⟩, rfl⟩
    rcases exchanged.later present with ⟨_, called⟩ | ⟨s, before, different, number, same, call⟩
    · have named : ((m.setFunction h).calledFunction? h t).map (·.name) = some target.name := by
        rw [Module.calledFunction?, called, Option.bind_some, Module.function?_setFunction,
          Module.function?_of_mem coherent.distinct known, Option.map_some, Option.map_some]
        by_cases here : target.id = h.id
        · have own := Module.function_eq_of_id coherent.distinct known listed (here.trans renews.id)
          simp [own, renews.id, Function.name, renews.symbol]
        · simp [here]
      obtain ⟨k, found, name⟩ := Option.map_eq_some_iff.mp named
      rw [not_selects found (by rw [name]; exact other)] at passes
      cases passes
    · rw [selects_exchanged coherent anchored listed renews exchanged before same call] at passes
      exact ⟨⟨s, ⟨before, passes⟩, number.symm⟩, number ▸ different⟩
  · rintro ⟨⟨s, ⟨before, passes⟩, rfl⟩, different⟩
    obtain ⟨t, present, number, same, call⟩ := exchanged.earlier before different
    refine ⟨t, ⟨present, ?_⟩, number⟩
    rw [selects_exchanged coherent anchored listed renews exchanged before same call]
    exact passes

theorem sites_nodup (numbered : f.localIds.Nodup) : (q.sites m f).Nodup :=
  (CallSite.ids_nodup numbered).sublist (List.filter_sublist.map _)

/-- The exchange of a matching call site for a call that does not match leaves one match less. -/
theorem count_exchanged (coherent : m.Coherent) (anchored : m.Anchored) (listed : f ∈ m.functions)
    (renews : Module.Renews f h) (exchanged : f.Exchanged site new target type h) (known : target ∈ m.functions)
    (other : q.profile.matchesStub (q.logical target.name) = false) (passes : q.selects m f site = true) :
    q.count (m.setFunction h) h + 1 = q.count m f := by
  have mem := mem_sites_exchanged coherent anchored listed renews exchanged known other
  have before := sites_nodup (q := q) (m := m) (coherent.functions f listed).numbered
  have after := sites_nodup (q := q) (m := m.setFunction h) exchanged.numbered
  have own : site.id ∈ q.sites m f :=
    List.mem_map.mpr ⟨site, List.mem_filter.mpr ⟨exchanged.listed, passes⟩, rfl⟩
  have same : (q.sites (m.setFunction h) h).Perm ((q.sites m f).erase site.id) := by
    rw [List.perm_ext_iff_of_nodup after (before.erase _)]
    intro id
    rw [mem, before.mem_erase_iff, and_comm]
  have lengths := same.length_eq
  rw [List.length_erase_of_mem own, sites, sites, List.length_map, List.length_map] at lengths
  have some : 0 < (q.sites m f).length := List.length_pos_of_mem own
  rw [sites, List.length_map] at some
  rw [count, count, lengths]
  omega

end

end StubQuery

section

variable {bridge : Bridge σ} {answer : String → Reply} {m : Module} {p : Profile} {caller callee : String}

theorem rpcIn_selects (answers : bridge.Answers answer) {suffixes : List String} {fs : List Function} {l : Locator σ}
    (faithful : l.Faithful answer suffixes) {rpc : RpcSite}
    (found : ((rpcIn bridge m p callee fs).run l).1 = some rpc) :
    StubQuery.selects ⟨p, callee, fixedName answer suffixes⟩ m rpc.caller rpc.site = true := by
  have keeps : ∀ symbol, Keeps (Locator.Faithful answer suffixes) (Locator.logical bridge symbol) :=
    Locator.logical_faithful answers
  induction fs generalizing l with
  | nil => cases found
  | cons f fs ih =>
    rw [rpcIn, run_bind] at found
    have after := Locator.matchSites_keeps keeps m f .any (isRpcFor m f p callee) f.callSites l faithful
    split at found
    · next site matched =>
      cases found
      rw [Locator.findMatch, Locator.matchSites_eq (.refl _)] at matched
      have passes := List.find?_some matched
      simp only [Bool.and_eq_true] at passes
      have named : Locator.nameAt bridge m f ((Locator.matchSites bridge m f .any (isRpcFor m f p callee) f.callSites).run l).2
          site = StubQuery.calledAs ⟨p, callee, fixedName answer suffixes⟩ m f site := by
        rw [Locator.nameAt, Locator.calleeName, StubQuery.calledAs]
        cases m.calledFunction? f site with
        | none => rfl
        | some target => exact Locator.logical_fixed answers after target.name
      rw [StubQuery.selects, ← named]
      exact passes.2.2
    · exact ih after found

theorem findRpc_selects (answers : bridge.Answers answer) {suffixes : List String} {l : Locator σ}
    (faithful : l.Faithful answer suffixes) {rpc : RpcSite}
    (found : ((findRpc bridge m p caller callee).run l).1 = .ok rpc) :
    StubQuery.selects ⟨p, callee, fixedName answer suffixes⟩ m rpc.caller rpc.site = true := by
  rw [findRpc] at found
  split at found
  · cases found
  · rw [run_bind] at found
    split at found
    · next located =>
      cases found
      exact rpcIn_selects answers faithful located
    · cases found

def Profile.existingNames (p : Profile) (callee : String) : List String :=
  (if callee.isEmpty then [] else [p.mergedCalleeName callee]) ++
    (if p.existingCallee.isEmpty then [] else [p.existingCallee])

def chosenTarget? (p : Profile) (callee : String) (m : Module) : Option Function :=
  (p.existingNames callee).findSome? m.findFunction

theorem findRedirection_found {mode : Mode} {l : Locator σ} {r : Redirection}
    (found : ((findRedirection bridge mode p caller callee m).run l).1 = .ok r) :
    chosenTarget? p callee m = some r.target ∧ ((findRpc bridge m p caller callee).run l).1 = .ok r.rpc := by
  rw [findRedirection] at found
  split at found
  · cases found
  · extract_lets tried at found
    split at found
    · cases found
    · next target known =>
      rw [run_bind] at found
      split at found
      · cases found
      · next rpc located =>
        split at found
        · cases found
        · split at found
          · cases found
          · cases found
            exact ⟨known, located⟩

theorem chosenTarget?_name (p : Profile) (callee : String) (m : Module) :
    (chosenTarget? p callee m).map (·.name) = (p.existingNames callee).find? (m.functions.map (·.name)).contains := by
  rw [chosenTarget?]
  induction p.existingNames callee with
  | nil => rfl
  | cons name names ih =>
    rw [List.findSome?_cons, List.find?_cons]
    cases known : m.findFunction name with
    | some f =>
      obtain ⟨listed, rfl⟩ := findFunction_mem known
      have present : (m.functions.map (·.name)).contains f.name = true := by
        simpa using ⟨f, listed, rfl⟩
      rw [present]
      rfl
    | none =>
      have absent : (m.functions.map (·.name)).contains name = false := by
        simpa [Module.findFunction] using known
      rw [absent]
      exact ih

end

theorem RpcSite.Replaceable.exchanged {rpc : RpcSite} {m : Module} {args : List (Argument Value)} {target : Function}
    (replaceable : rpc.Replaceable m args target.result) (coherent : rpc.caller.Coherent) (n : Module) :
    ∃ new h, replaceRpc n rpc target args = (n.setFunction h, none) ∧ Module.Renews rpc.caller h ∧
      rpc.caller.Exchanged rpc.site new target target.result h := by
  obtain ⟨new, g, gone, op, _, unseen, apart, placed, replaced⟩ := replaceable.placed coherent n
  have after : ((g.mapOperands (rpc.site.rename target.result new.value)).note gone).Coherent :=
    Function.note_coherent (Function.mapOperands_coherent (rpc.site.rename_block _ _) placed.coherent) gone
  have names := Function.blockNames_replaceCallSite coherent replaceable.site (replaceable.accepts target)
    rpc.site.attachments n
  rw [replaced] at names
  refine ⟨new, _, by simp only [replaceRpc, replaced], ⟨?_, ?_, names, after⟩, ?_⟩
  · rw [placed.frame]
    rfl
  · rw [placed.frame]
    rfl
  · refine ⟨coherent, replaceable.site, ⟨_, _, op, rfl⟩, unseen, apart, after.numbered, ?_, g, placed, rfl⟩
    rw [Function.note_localIds, Function.localIds_mapOperands]
    exact placed.removed (CallSite.standsIn_of_mem replaceable.site)

/-- A module in which one matching call site of a function has been used up, and none of any other function. -/
structure StubQuery.UsesUp (q : StubQuery) (m : Module) (caller : Function) (n : Module) : Prop where
  listed : caller ∈ m.functions
  ids : n.functions.map (·.id) = m.functions.map (·.id)
  own : ∀ g ∈ n.functions, g.id = caller.id → q.count n g + 1 = q.count m caller
  others : ∀ f ∈ m.functions, f.id ≠ caller.id → ∀ g ∈ n.functions, g.id = f.id → q.count n g = q.count m f

/-- What a module has to be like for stub calls to be redirected in it again and again: the function that they are
redirected to does not itself pass for the stub. -/
structure StubQuery.Redirectable (q : StubQuery) (m : Module) : Prop where
  coherent : m.Coherent
  anchored : m.Anchored
  target : ∀ target, chosenTarget? q.profile q.callee m = some target →
    q.profile.matchesStub (q.logical target.name) = false

namespace StubQuery

variable {q : StubQuery} {m : Module} {f h target : Function} {site : CallSite} {new : Instruction} {type : Ty}

theorem usesUp_exchanged (redirectable : q.Redirectable m) (listed : f ∈ m.functions) (renews : Module.Renews f h)
    (exchanged : f.Exchanged site new target type h) (known : target ∈ m.functions)
    (other : q.profile.matchesStub (q.logical target.name) = false) (passes : q.selects m f site = true) :
    q.UsesUp m f (m.setFunction h) := by
  obtain ⟨coherent, anchored, _⟩ := redirectable
  have whole : (m.setFunction h).symbolIds.Nodup := by
    rw [Module.symbolIds_setFunction]
    exact coherent.distinct
  refine ⟨listed, Module.map_setFunction coherent.distinct listed renews.id renews.id, fun g present same => ?_,
    fun k kept different g present same => ?_⟩
  · obtain rfl := Module.function_eq_of_id whole present (mem_setFunction_self listed renews.id) (same.trans renews.id.symm)
    exact count_exchanged coherent anchored listed renews exchanged known other passes
  · have still := mem_setFunction_other (g := h) kept (renews.id ▸ different)
    obtain rfl := Module.function_eq_of_id whole present still same
    exact count_other coherent anchored listed renews g

theorem sum_add_count {α β : Type} [DecidableEq β] {key : α → β} {less more : α → Nat} {c : β} {xs ys : List α}
    (same : xs.map key = ys.map key)
    (step : ∀ x ∈ xs, ∀ y ∈ ys, key x = key y → less x + (if key y = c then 1 else 0) = more y) :
    (xs.map less).sum + (ys.map key).count c = (ys.map more).sum := by
  induction ys generalizing xs with
  | nil =>
    obtain rfl := List.map_eq_nil_iff.mp same
    rfl
  | cons y ys ih =>
    obtain ⟨x, xs, rfl, first, rest⟩ := List.map_eq_cons_iff.mp same
    have behind := ih rest fun a listed b present =>
      step a (List.mem_cons_of_mem _ listed) b (List.mem_cons_of_mem _ present)
    have here := step x List.mem_cons_self y List.mem_cons_self first
    simp only [List.map_cons, List.sum_cons, List.count_cons, beq_iff_eq]
    omega

theorem UsesUp.total {n : Module} {caller : Function} (uses : q.UsesUp m caller n) (distinct : m.symbolIds.Nodup) :
    q.total n + 1 = q.total m := by
  have numbers : (m.functions.map (·.id)).Nodup := distinct.of_append_left
  have once : (m.functions.map (·.id)).count caller.id = 1 :=
    List.count_eq_one_of_mem numbers (List.mem_map.mpr ⟨caller, uses.listed, rfl⟩)
  rw [StubQuery.total, StubQuery.total, ← once]
  refine sum_add_count uses.ids ?_
  intro g present k listed same
  by_cases own : k.id = caller.id
  · obtain rfl := Module.function_eq_of_id distinct listed uses.listed own
    rw [if_pos rfl]
    exact uses.own g present same
  · rw [if_neg own]
    exact uses.others k listed own g present same

theorem redirectable_exchanged (redirectable : q.Redirectable m) (listed : f ∈ m.functions) (renews : Module.Renews f h) :
    q.Redirectable (m.setFunction h) where
  coherent := Module.setFunction_coherent redirectable.coherent renews.coherent
  anchored := Module.setFunction_anchored redirectable.anchored listed renews
  target := by
    intro target chosen
    have names : (m.setFunction h).functions.map (·.name) = m.functions.map (·.name) :=
      Module.map_setFunction redirectable.coherent.distinct listed renews.id (by rw [Function.name, renews.symbol]; rfl)
    have same := chosenTarget?_name q.profile q.callee (m.setFunction h)
    rw [names, ← chosenTarget?_name, chosen, Option.map_some] at same
    obtain ⟨before, known, name⟩ := Option.map_eq_some_iff.mp same.symm
    rw [← name]
    exact redirectable.target before known

end StubQuery

section

variable {bridge : Bridge σ} {answer : String → Reply} {o : Options} {m : Module}

/-- The runs, one after the other and each on what the one before it has left, that report a change. -/
def changedRuns (bridge : Bridge σ) (o : Options) : Module → List σ → Nat
  | _, [] => 0
  | m, state :: states =>
    (if (run bridge state o m).1.2.changed then 1 else 0) + changedRuns bridge o (run bridge state o m).1.1 states

theorem run_mergeExisting (mode : o.mode = .mergeExisting) (state : σ) (m : Module) :
    (run bridge state o m).1.1 = ((mergeExisting bridge .mergeExisting o.effectiveProfile o.caller o.callee m).run
        (Locator.new [o.caller, o.callee] state)).1.1 ∧
      (run bridge state o m).1.2.changed = ((mergeExisting bridge .mergeExisting o.effectiveProfile o.caller o.callee m).run
        (Locator.new [o.caller, o.callee] state)).1.2.changed := by
  simp only [run, runMode, mode]
  exact ⟨rfl, rfl⟩

/-- One run: it uses up a stub call of the caller that it has found, or leaves the module as it was. -/
theorem run_step (answers : bridge.Answers answer) (mode : o.mode = .mergeExisting)
    (redirectable : (o.stubQuery answer).Redirectable m) (state : σ) :
    (o.stubQuery answer).Redirectable (run bridge state o m).1.1 ∧
      (((run bridge state o m).1.2.changed = false ∧ (run bridge state o m).1.1 = m) ∨
        (run bridge state o m).1.2.changed = true ∧ ∃ rpc,
          ((findRpc bridge m o.effectiveProfile o.caller o.callee).run (Locator.new [o.caller, o.callee] state)).1 = .ok rpc ∧
            (o.stubQuery answer).UsesUp m rpc.caller (run bridge state o m).1.1) := by
  obtain ⟨module, changes⟩ := run_mergeExisting mode state m
  rw [module, changes]
  cases found : ((findRedirection bridge .mergeExisting o.effectiveProfile o.caller o.callee m).run
      (Locator.new [o.caller, o.callee] state)).1 with
  | error d =>
    rw [mergeExisting, run_bind, found]
    exact ⟨redirectable, .inl ⟨rfl, rfl⟩⟩
  | ok r =>
    have coherent := redirectable.coherent
    have checked := findRedirection_checked found
    obtain ⟨chosen, located⟩ := findRedirection_found found
    have replaceable := checked.replaceable
    have passes := findRpc_selects answers (Locator.new_faithful answer [o.caller, o.callee] state) located
    obtain ⟨new, h, replaced, renews, exchanged⟩ :=
      replaceable.exchanged (coherent.functions _ replaceable.caller) m
    rw [mergeExisting, run_bind, found]
    simp only [replaced, run_pure]
    exact ⟨StubQuery.redirectable_exchanged redirectable replaceable.caller renews, .inr ⟨trivial, r.rpc, located,
      StubQuery.usesUp_exchanged redirectable replaceable.caller renews exchanged checked.target
        (redirectable.target r.target chosen) passes⟩⟩

/-- Every run that reports a change has used up a matching call site for good. -/
theorem changedRuns_le (answers : bridge.Answers answer) (mode : o.mode = .mergeExisting)
    (redirectable : (o.stubQuery answer).Redirectable m) (states : List σ) :
    changedRuns bridge o m states ≤ (o.stubQuery answer).total m := by
  induction states generalizing m with
  | nil => exact Nat.zero_le _
  | cons state states ih =>
    obtain ⟨still, outcome⟩ := run_step answers mode redirectable state
    have behind := ih still
    rw [changedRuns]
    rcases outcome with ⟨quiet, same⟩ | ⟨changed, rpc, _, uses⟩
    · rw [same] at behind
      rw [quiet, same]
      simpa using behind
    · have total := uses.total redirectable.coherent.distinct
      rw [changed, if_pos rfl]
      omega

end

/-- Where the function that stub calls are redirected to does not itself pass for the stub, a run that changes the module
has used up one matching call of the function in which it found the stub call, and none of any other. So there are no more
such runs than there were matching calls. -/
theorem stub_calls_used_up (bridge : Bridge σ) {answer : String → Reply} (answers : bridge.Answers answer) {o : Options}
    (mode : o.mode = .mergeExisting) {m : Module} (redirectable : (o.stubQuery answer).Redirectable m) :
    (∀ state, (run bridge state o m).1.2.changed = true → ∃ rpc,
      ((findRpc bridge m o.effectiveProfile o.caller o.callee).run (Locator.new [o.caller, o.callee] state)).1 = .ok rpc ∧
        (o.stubQuery answer).UsesUp m rpc.caller (run bridge state o m).1.1) ∧
      ∀ states, changedRuns bridge o m states ≤ (o.stubQuery answer).total m := by
  refine ⟨fun state changed => ?_, changedRuns_le answers mode redirectable⟩
  obtain ⟨_, ⟨quiet, _⟩ | ⟨_, used⟩⟩ := run_step answers mode redirectable state
  · exact absurd (quiet.symm.trans changed) Bool.false_ne_true
  · exact used

namespace Halves

def answer (symbol : String) : Reply := ⟨Symbol.logicalName symbol, none⟩

theorem program_redirectable (width : UInt64) : (redirecting.stubQuery answer).Redirectable (program width) where
  coherent := (program_sound width).coherent
  anchored := fun x listed => nomatch listed
  target := by
    intro target chosen
    have known : chosenTarget? Profile.go "b" (program width) = some wrapper := by
      simp [chosenTarget?, Profile.existingNames, findFunction_eq, Profile.mergedCalleeName, Profile.go]
    have bare : Locator.bare Bridge.inProcess () "main.wrapper__go2c" = "main.wrapper__go2c" :=
      Locator.bare_plain (by simp [Symbol.logicalName, Symbol.looksMangled]) (by decide +kernel)
    have stripped : Locator.stripWith (["a", "b"].filter (· != "")) "main.wrapper__go2c" = "main.wrapper__go2c" := by
      decide +kernel
    have plain : fixedName answer ["a", "b"] "main.wrapper__go2c" = "main.wrapper__go2c" := by
      rw [fixedName, Locator.firstName_eq, stripped]
      exact bare
    obtain rfl : wrapper = target := Option.some.inj (known.symm.trans chosen)
    have name : (redirecting.stubQuery answer).logical wrapper.name = "main.wrapper__go2c" := by
      rw [wrapper_name]
      exact plain
    rw [name]
    decide

end Halves

theorem halves_stub_call_used_up :
    (run Bridge.inProcess () Halves.redirecting (Halves.program 64)).1.2.changed = true ∧
      (∃ rpc, ((findRpc Bridge.inProcess (Halves.program 64) .go "a" "b").run (Locator.new ["a", "b"] ())).1 = .ok rpc ∧
        (Halves.redirecting.stubQuery Halves.answer).UsesUp (Halves.program 64) rpc.caller
          (run Bridge.inProcess () Halves.redirecting (Halves.program 64)).1.1) ∧
      ∀ states : List Unit, changedRuns Bridge.inProcess Halves.redirecting (Halves.program 64) states ≤
        (Halves.redirecting.stubQuery Halves.answer).total (Halves.program 64) := by
  have answers : (Bridge.inProcess : Bridge Unit).Answers Halves.answer := fun _ _ => rfl
  have mode : Halves.redirecting.mode = .mergeExisting := rfl
  have used := stub_calls_used_up Bridge.inProcess answers mode (Halves.program_redirectable 64)
  obtain ⟨r, found⟩ := Halves.findRedirection_isOk 64
  obtain ⟨g, _, form⟩ := mergeExisting_redirected (Halves.program_sound 64).coherent found
  have changed : (run Bridge.inProcess () Halves.redirecting (Halves.program 64)).1.2.changed = true := by
    rw [(run_mergeExisting rfl () (Halves.program 64)).2]
    exact congrArg (·.2.changed) form
  exact ⟨changed, used.1 () changed, used.2⟩

end CallFusion
