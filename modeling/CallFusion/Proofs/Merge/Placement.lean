import CallFusion.Proofs.Ir.Exchanges
import CallFusion.Proofs.Merge.Leftovers

/-!
Carrying out a plan for marshalling calls is exact and atomic. It is refused only over the type of the copy
intrinsic, and then nothing is edited. Otherwise each planned call has given way to a copy between the buffers of
the plan, with no more casts ahead of it than its buffers need, and the rest of the function is as it was.
-/

namespace CallFusion

open Ir

open MarshallingPlan (bufferOf)

variable {σ : Type}

/-- What a copy is to move in place of a call. The tag is for the names of the casts. -/
structure Transfer where
  site : CallSite
  dest : Value
  source : Value
  size : UInt64
  tag : String

namespace MarshallingPlan

/-- Arguments go from the second parameter to the buffer of the receiving call. -/
def incoming (plan : MarshallingPlan) (args : Param) (site : CallSite) : Transfer :=
  ⟨site, bufferOf site, args.value, plan.receiveSize, "recv"⟩

/-- The result goes from the buffer of the sending call to the first parameter. -/
def outgoing (plan : MarshallingPlan) (result : Param) : Transfer :=
  ⟨plan.send, result.value, bufferOf plan.send, plan.sendSize, "send"⟩

def transfers (plan : MarshallingPlan) (result args : Param) : List Transfer :=
  plan.receive.toList.map (plan.incoming args) ++ [plan.outgoing result]

end MarshallingPlan

/-- How a value is handed to a copy: as it is if it points to bytes, a constant in a constant cast, and anything
else behind an instruction of the given name that casts it. -/
inductive AsBytes (name : String) (v : Value) : Value × List Instruction → Prop
  | plain (bytes : v.type.same .bytePointer = true) : AsBytes name v (v, [])
  | constant (mention later : Nat) (c : Constant) (other : ¬ v.type.same .bytePointer = true)
      (held : v = .const mention c) : AsBytes name v (.const later (.cast .bitcast c .bytePointer), [])
  | instruction (cast : Instruction) (other : ¬ v.type.same .bytePointer = true) (code : ∀ mention c, v ≠ .const mention c)
      (ident : cast.ident = .named name) (type : cast.type = .bytePointer) (op : cast.op = .cast .bitcast v .bytePointer) :
      AsBytes name v (cast.value, [cast])

theorem toBytePointer_asBytes (f : Function) (id : LocalId) (mention : Nat) (name : String) (v : Value) :
    AsBytes (uniqueName f name) v (toBytePointer f id mention name v) := by
  unfold toBytePointer
  split
  · next bytes => exact .plain bytes
  · next other =>
    split
    · next old c => exact .constant old mention c other rfl
    · next code => exact .instruction _ other code rfl rfl rfl

/-- The exchange of a call for the copy of a transfer, with the casts that its buffers need and nothing else. -/
structure Transfer.Realised (t : Transfer) (copy : Function) (first second : String) (x : Swap) : Prop where
  site : x.site = t.site
  op : ∃ dest source mention, AsBytes first t.dest dest ∧ AsBytes second t.source source ∧
    x.ahead = dest.2 ++ source.2 ∧ x.call.op = .call "" (copyCall copy dest.1 source.1 mention t.size)
  type : x.call.type = .void
  attachments : x.call.attachments = []

/-- A call of a function gives way to the copy of a transfer. -/
structure Transferred (copy : Function) (t : Transfer) (f : Function) (x : Swap) (g : Function) : Prop where
  realised : t.Realised copy (uniqueName f (t.tag ++ ".dst")) (uniqueName f (t.tag ++ ".src")) x
  fresh : ∀ i ∈ x.placed, i.id ∉ f.seen
  apart : ∀ y : Swap, y.site.id ∈ f.seen → t.dest.local? ≠ some y.site.id → t.source.local? ≠ some y.site.id →
    x.Apart y
  blocks : List.Forall₂ (Exchanges [x]) f.blocks g.blocks

theorem insertCasts_aheadOf {f g : Function} (coherent : f.Coherent) {site : CallSite} {b : Block} (member : b ∈ f.blocks)
    (held : site.HeldBy b) (stands : site.StandsIn f) {casts : List Instruction} {m : Module}
    (done : MarshallingPlan.insertCasts m f site casts = .ok g) : List.Forall₂ (AheadOf site casts) f.blocks g.blocks := by
  have untouched : ∀ {is : List Instruction}, (∀ i ∈ is, i.id ≠ site.id) →
      is.flatMap (fun i => if i.id = site.id then casts ++ [i] else [i]) = is := by
    intro is other
    rw [List.flatMap_congr fun i listed => if_neg (other i listed), List.flatMap_singleton']
  obtain ⟨k, inserted, place⟩ := insertCasts_eq coherent member held casts m
  obtain rfl := Except.ok.inj (inserted.symm.trans done)
  rw [Function.updateBlock, List.forall₂_map_right_iff, List.forall₂_same]
  intro d within
  by_cases here : d.id = b.id
  · obtain rfl := Function.block_eq_of_id coherent.numbered within member here
    rw [if_pos (by simp)]
    refine ⟨rfl, rfl, rfl, ?_⟩
    cases successors : site.successors with
    | none =>
      rw [successors] at place
      obtain ⟨earlier, i, later, insts, number, rfl, ahead, behind⟩ := place
      rw [if_neg (stands.ordinary coherent.numbered successors within).1, List.append_nil, insts, List.flatMap_append,
        List.flatMap_cons, if_pos number, untouched ahead, untouched behind]
      simp [Block.insertAt, insts]
    | some pair =>
      rw [successors] at place
      obtain ⟨home, elsewhere⟩ := stands.exceptional coherent.numbered successors within
      rw [untouched elsewhere, if_pos (home.mpr held.1), place]
      simp [Block.insertAt]
  · obtain ⟨last, elsewhere⟩ := stands.elsewhere coherent.numbered within (held.1 ▸ here)
    rw [if_neg (by simpa using here)]
    refine ⟨rfl, rfl, rfl, ?_⟩
    rw [untouched elsewhere, if_neg last, List.append_nil]

section

variable {f : Function} {t : Transfer}

/-- A call that stands in its function gives way to the copy of a transfer, if its result is neither used by code nor
one of the buffers. -/
theorem replaceByCopy_transferred (coherent : f.Coherent) {b : Block} (member : b ∈ f.blocks) (held : t.site.HeldBy b)
    (stands : t.site.StandsIn f) (known : t.site.id ∈ f.seen) (free : t.site.type.isVoid = true ∨ f.UnusedInCode t.site.id)
    (notDest : t.dest.local? ≠ some t.site.id) (notSource : t.source.local? ≠ some t.site.id) (copy : Function) (m : Module) :
    ∃ g x, MarshallingPlan.replaceByCopy m f copy t.site t.dest t.source t.size t.tag = (g, none) ∧
      Transferred copy t f x g := by
  have first := toBytePointer_pointed f f.freshId f.freshMention (t.tag ++ ".dst") t.dest
  have second := toBytePointer_pointed f (f.freshId + 1) (f.freshMention + 1) (t.tag ++ ".src") t.source
  have bytes := toBytePointer_asBytes f f.freshId f.freshMention (t.tag ++ ".dst") t.dest
  have bytes' := toBytePointer_asBytes f (f.freshId + 1) (f.freshMention + 1) (t.tag ++ ".src") t.source
  generalize casts : toBytePointer f f.freshId f.freshMention (t.tag ++ ".dst") t.dest = d at first bytes
  generalize casts' : toBytePointer f (f.freshId + 1) (f.freshMention + 1) (t.tag ++ ".src") t.source = s at second bytes'
  obtain ⟨h, done, inserted, accepted⟩ := casts_inserted coherent member held known
    (free.imp_right fun unused => ⟨unused, notDest, notSource⟩) first second copy (f.freshMention + 2) t.size m
  obtain ⟨c, within, still⟩ := inserted.held member held
  obtain ⟨g, branch, replaced, unseen, exchanged⟩ := Function.replaceCallSite_exchanges inserted.coherent within still
    (inserted.standsIn stands) accepted (copyCall_apart first second known notDest notSource) [] m
  refine ⟨g, ⟨t.site, d.2 ++ s.2, h.newcomer t.site (copyCall copy d.1 s.1 (f.freshMention + 2) t.size) .void [], branch⟩,
    replaceByCopy_eq casts casts' done replaced, ?_⟩
  have fresh : ∀ i ∈ d.2 ++ s.2 ++ [h.newcomer t.site (copyCall copy d.1 s.1 (f.freshMention + 2) t.size) .void []],
      i.id ∉ f.seen := by
    intro i listed
    rcases List.mem_append.mp listed with cast | call
    · exact (casts_numbered first second).2 i cast
    · rw [List.mem_singleton.mp call]
      exact fun present => h.newcomer_unseen t.site _ .void [] (inserted.seen present)
  have passes : ∀ site : CallSite, site.id ∈ f.seen → t.dest.local? ≠ some site.id → t.source.local? ≠ some site.id →
      ∀ i ∈ d.2 ++ s.2, site.Passes i := by
    intro site seen other other' i listed
    refine ⟨fun same => fresh i (List.mem_append_left _ listed) (same ▸ seen), casts_plain first second i listed, ?_⟩
    intro o present
    exact (mem_casts_operands first second listed present).elim (· ▸ other) (· ▸ other')
  constructor
  case realised => exact ⟨rfl, ⟨d, s, f.freshMention + 2, bytes, bytes', rfl, rfl⟩, rfl, rfl⟩
  case fresh => exact fresh
  case apart =>
    intro y seen other other'
    refine ⟨fun i listed => ?_, fun (same : branch = y.site.id) => unseen (inserted.seen (same ▸ seen))⟩
    rcases List.mem_append.mp listed with cast | call
    · exact passes y.site seen other other' i cast
    · rw [List.mem_singleton.mp call]
      refine ⟨fun same => ?_, fun _ _ phi => (nomatch phi), copyCall_apart first second seen other other'⟩
      rw [← same] at seen
      exact fresh _ (List.mem_append_right _ (List.mem_singleton.mpr rfl)) seen
  case blocks =>
    exact forall₂_trans (fun ahead exchanged => ahead.exchanges exchanged (passes t.site known notDest notSource))
      (insertCasts_aheadOf coherent member held stands done) exchanged

end

section

variable {m n : Module} {f g between copy : Function} {plan : MarshallingPlan} {result args : Param} {t : Transfer}

theorem Elidable.transferred (elidable : Elidable f t.site) (coherent : f.Coherent) (typed : f.Typed)
    (first : Endpoint f t.site t.dest) (second : Endpoint f t.site t.source) (copy : Function) (m : Module) :
    ∃ g x, MarshallingPlan.replaceByCopy m f copy t.site t.dest t.source t.size t.tag = (g, none) ∧
      Copied f t.site copy t.dest t.source g ∧ Transferred copy t f x g := by
  obtain ⟨b, member, inside⟩ := List.mem_flatMap.mp elidable.listed
  have ready := elidable.ready coherent
  have buffer := elidable.not_result typed elidable.buffer_operand elidable.buffer_isPointer
  obtain ⟨g, replaced, copied⟩ := elidable.copied coherent first second copy m t.size t.tag
  obtain ⟨h, x, again, step⟩ := replaceByCopy_transferred coherent member (CallSite.heldBy_of_mem inside)
    (CallSite.standsIn_of_mem elidable.listed) ready.known (ready.free.imp_right And.left) (first.apart ready buffer)
    (second.apart ready buffer) copy m
  obtain ⟨rfl, _⟩ := Prod.mk.inj (replaced.symm.trans again)
  exact ⟨g, x, replaced, copied, step⟩

theorem Transferred.seen {x : Swap} (step : Transferred copy t f x g) (copied : Copied f t.site copy t.dest t.source g)
    (stands : t.site.StandsIn f) {id : LocalId} (present : id ∈ f.localIds) : id ∈ g.seen := by
  by_cases own : id = t.site.id
  · exact own ▸ (copied.removed stands).2
  rw [Function.localIds_eq, List.mem_append] at present
  rcases present with param | inside
  · refine Function.mem_seen_of_mem_localIds (List.mem_append_left _ ?_)
    rwa [copied.params]
  · obtain ⟨b, member, held⟩ := List.mem_flatMap.mp inside
    obtain ⟨c, there, exchanges⟩ := forall₂_mem_left step.blocks member
    have other : Swap.at? [x] id = none := by
      rw [Swap.at?_singleton, step.realised.site, if_neg (Ne.symm own)]
    exact Function.mem_seen_of_mem_localIds (Function.mem_localIds_of_block there (exchanges.ids_kept held other))

theorem Copied.transferred {r : CallSite} {dest source : Value} (copied : Copied f r copy dest source between)
    (coherent : f.Coherent) (typed : f.Typed) (receive : Elidable f r) (send : Elidable f t.site)
    (ends : Endpoint f r dest ∧ Endpoint f r source) (other : r.id ≠ t.site.id) (first : Endpoint f t.site t.dest)
    (second : Endpoint f t.site t.source) (m : Module) :
    ∃ g x, MarshallingPlan.replaceByCopy m between copy t.site t.dest t.source t.size t.tag = (g, none) ∧
      Copied between t.site copy t.dest t.source g ∧ Transferred copy t between x g := by
  have moved : ∀ {v}, Endpoint f t.site v → Endpoint between t.site v := fun endpoint =>
    endpoint.imp_right fun ⟨p, given, same⟩ => ⟨p, copied.params.symm ▸ given, same⟩
  have ready := copied.ready coherent receive send ends.1 ends.2
  have buffer := send.not_result typed send.buffer_operand send.buffer_isPointer
  obtain ⟨c, present, held, stands⟩ : ∃ c ∈ between.blocks, t.site.HeldBy c ∧ t.site.StandsIn between := by
    obtain ⟨_, ⟨⟨c, present, held⟩, stands⟩ | ⟨again, _⟩⟩ := copied.held coherent receive.listed send.listed
    · exact ⟨c, present, held, stands.resolve_left (Ne.symm other)⟩
    · exact absurd again (Ne.symm other)
  obtain ⟨g, replaced, second'⟩ := ready.copied copied.coherent present held (moved first) (moved second) copy m t.size t.tag
  obtain ⟨h, x, again, step⟩ := replaceByCopy_transferred copied.coherent present held stands ready.known
    (ready.free.imp_right And.left) ((moved first).apart ready buffer) ((moved second).apart ready buffer) copy m
  obtain ⟨rfl, _⟩ := Prod.mk.inj (replaced.symm.trans again)
  exact ⟨g, x, replaced, second', step⟩

/-- The receiving call, if the plan has one, gives way to its copy. -/
inductive Received (plan : MarshallingPlan) (copy : Function) (args : Param) (f : Function) :
    List Swap → Function → Prop
  | skipped (absent : plan.receive = none) : Received plan copy args f [] f
  | done {site : CallSite} {x : Swap} {g : Function} (planned : plan.receive = some site)
      (params : g.params = f.params) (step : Transferred copy (plan.incoming args site) f x g) :
      Received plan copy args f [x] g

/-- A function of which the planned calls have given way to copies, the receiving one first. -/
structure Relayed (plan : MarshallingPlan) (copy : Function) (result args : Param) (f : Function) (xs : List Swap)
    (y : Swap) (g : Function) : Prop where
  steps : ∃ between, Received plan copy args f xs between ∧ Transferred copy (plan.outgoing result) between y g
  apart : ∀ x ∈ xs, x.Apart y
  fresh : ∀ x ∈ xs ++ [y], ∀ i ∈ x.placed, i.id ∉ f.localIds
  coherent : g.Coherent
  frame : g = { f with blocks := g.blocks, dropped := g.dropped }

namespace Relayed

variable {xs : List Swap} {y : Swap}

theorem blocks (relayed : Relayed plan copy result args f xs y g) :
    List.Forall₂ (Exchanges (xs ++ [y])) f.blocks g.blocks := by
  obtain ⟨between, received, sent⟩ := relayed.steps
  cases received with
  | skipped => exact sent.blocks
  | done _ _ step => exact forall₂_trans (fun first second => first.append second relayed.apart) step.blocks sent.blocks

theorem realised (relayed : Relayed plan copy result args f xs y g) :
    List.Forall₂ (fun t x => ∃ first second, t.Realised copy first second x) (plan.transfers result args) (xs ++ [y]) := by
  obtain ⟨between, received, sent⟩ := relayed.steps
  cases received with
  | skipped absent =>
    rw [MarshallingPlan.transfers, absent]
    exact .cons ⟨_, _, sent.realised⟩ .nil
  | done planned _ step =>
    rw [MarshallingPlan.transfers, planned]
    exact .cons ⟨_, _, step.realised⟩ (.cons ⟨_, _, sent.realised⟩ .nil)

theorem sites (relayed : Relayed plan copy result args f xs y g) : (xs ++ [y]).map (·.site) = plan.sites := by
  obtain ⟨between, received, sent⟩ := relayed.steps
  cases received with
  | skipped absent =>
    rw [MarshallingPlan.sites, absent]
    exact congrArg (fun site => [site]) sent.realised.site
  | done planned _ step =>
    rw [MarshallingPlan.sites, planned]
    exact congrArg₂ (fun first last => [first, last]) step.realised.site sent.realised.site

end Relayed

theorem MarshallingPlan.Fits.elidable (fits : plan.Fits f) {site : CallSite} (planned : site ∈ plan.sites) :
    Elidable f site := by
  rcases List.mem_append.mp planned with received | sent
  · exact fits.receive site (Option.mem_toList.mp received)
  · exact List.mem_singleton.mp sent ▸ fits.send

/-- Carrying out a plan for two different calls, once the copy intrinsic is declared. -/
theorem apply_relayed (coherent : m.Coherent) (listed : f ∈ m.functions) (typed : f.Typed) (fits : plan.Fits f)
    (single : ∀ site, plan.receive = some site → site.id ≠ plan.send.id) (declared : declareCopy m = .ok (n, copy))
    {rest : List Param} (params : f.params = result :: args :: rest) :
    ∃ g xs y, plan.apply m = (n.setFunction g, plan.sites.length, none) ∧ Relayed plan copy result args f xs y g := by
  have found := fits.function?_declared coherent listed declared
  have function := coherent.functions f listed
  have resultEnd : ∀ {site : CallSite}, Endpoint f site result.value := .inr ⟨result, params ▸ List.mem_cons_self, rfl⟩
  have argsEnd : ∀ {site : CallSite}, Endpoint f site args.value :=
    .inr ⟨args, params ▸ List.mem_cons_of_mem _ List.mem_cons_self, rfl⟩
  cases received : plan.receive with
  | none =>
    obtain ⟨g, y, replaced, copied, step⟩ := Elidable.transferred (t := plan.outgoing result) fits.send function typed
      resultEnd (.inl rfl) copy (n.setFunction f)
    simp only [MarshallingPlan.outgoing] at replaced
    refine ⟨g, [], y, ?_, ⟨f, .skipped received, step⟩, (fun _ none => nomatch none), fun x only i placed known => ?_,
      copied.coherent, copied.frame⟩
    · rw [plan.apply_of_skipped declared found params received replaced (by rw [copied.frame]), MarshallingPlan.sites, received]
      rfl
    · rw [List.mem_singleton.mp only] at placed
      exact step.fresh i placed (Function.mem_seen_of_mem_localIds known)
  | some r =>
    have receive := fits.receive r received
    obtain ⟨g, x, replaced, copied, step⟩ := Elidable.transferred (t := plan.incoming args r) receive function typed
      (.inl rfl) argsEnd copy n
    obtain ⟨h, y, again, copied', step'⟩ := Copied.transferred (t := plan.outgoing result) copied function typed receive
      fits.send ⟨.inl rfl, argsEnd⟩ (single r received) resultEnd (.inl rfl) (n.setFunction g)
    simp only [MarshallingPlan.incoming] at replaced
    simp only [MarshallingPlan.outgoing] at again
    refine ⟨h, [x], y, ?_, ⟨g, .done received (by rw [copied.frame]) step, step'⟩, fun z only => ?_, fun z listed i placed known => ?_,
      copied'.coherent, ?_⟩
    · rw [plan.apply_of_received declared found params received replaced again (by rw [copied'.frame]), MarshallingPlan.sites,
        received]
      rfl
    · -- The first copy uses neither a result of the function nor one that the second call had.
      obtain rfl := List.mem_singleton.mp only
      have site : y.site = plan.send := step'.realised.site
      refine step.apart y ?_ ?_ ?_
      · rw [site]
        exact (fits.send.ready function).known
      · rw [site]
        exact fits.send.not_result typed receive.buffer_operand receive.buffer_isPointer
      · rw [site]
        exact fun held => fits.send.params_apart function args (params ▸ List.mem_cons_of_mem _ List.mem_cons_self)
          (Option.some.inj held)
    · rcases List.mem_cons.mp listed with rfl | last
      · exact step.fresh i placed (Function.mem_seen_of_mem_localIds known)
      · rw [List.mem_singleton.mp last] at placed
        exact step'.fresh i placed (step.seen copied (CallSite.standsIn_of_mem receive.listed) known)
    · rw [copied'.frame, copied.frame]

end

/-- The copy intrinsic as the module declares it, or added to the functions of a module that does not. -/
inductive Declaring (m : Module) : Module → Function → Prop
  | present {copy : Function} (found : m.findFunction copyName = some copy)
      (proper : copy.signature.same copySignature = true) : Declaring m m copy
  | added (missing : m.findFunction copyName = none) :
      Declaring m (m.addFunction (copyDeclaration m.freshSymbol)) (copyDeclaration m.freshSymbol)

section

variable {m n : Module} {f g copy : Function}

theorem Declaring.count (declaring : Declaring m n copy) :
    (n.functions.map (·.name)).count copyName = max 1 ((m.functions.map (·.name)).count copyName) := by
  cases declaring with
  | present found =>
    have some : 0 < (m.functions.map (·.name)).count copyName :=
      List.count_pos_iff.mpr (List.mem_map.mpr ⟨copy, findFunction_mem found⟩)
    omega
  | added missing =>
    have none : (m.functions.map (·.name)).count copyName = 0 := by
      rw [List.count_eq_zero]
      intro present
      obtain ⟨f, listed, named⟩ := List.mem_map.mp present
      simpa [named] using List.find?_eq_none.mp missing f listed
    rw [Module.addFunction, List.map_append, List.count_append, none, List.map_singleton, copyDeclaration_name]
    simp

end

theorem apply_undeclared {m : Module} {plan : MarshallingPlan} {e : Fault} (failed : declareCopy m = .error e) :
    plan.apply m = (m, 0, some e) := by
  rw [MarshallingPlan.apply, failed]

/-- The calls of a plan that was made for a function of the module give way to copies. -/
theorem MarshallingPlan.Made.relayed {bridge : Bridge σ} {m n : Module} {f copy : Function} {names : MarshallingNames}
    {l : Locator σ} {plan : MarshallingPlan} {ds : Diagnostics} (made : MarshallingPlan.Made bridge m f names l plan ds)
    (coherent : m.Coherent) (listed : f ∈ m.functions) (typed : f.Typed) (apart : names.receive ≠ names.send)
    (declared : declareCopy m = .ok (n, copy)) : ∃ result args rest g xs y, f.params = result :: args :: rest ∧
      plan.apply m = (n.setFunction g, plan.sites.length, none) ∧ Relayed plan copy result args f xs y g := by
  obtain ⟨result, args, rest, params⟩ := made.fits.params
  obtain ⟨g, xs, y, relayed⟩ := apply_relayed coherent listed typed made.fits
    (fun _ received => made.plansFirst.apart (coherent.functions f listed).numbered apart received) declared params
  exact ⟨result, args, rest, g, xs, y, params, relayed⟩

namespace Relay

def receive : Function := outside 1 "main.get__arg__from__caller" [.pointer (.int 64) 0]

def send : Function := outside 2 "main.send__return__value__to__caller" [.pointer (.int 64) 0]

def handing (target : Function) : Call Value :=
  { callee := target.value, args := [.value [] (.local 3 (.pointer (.int 64) 0))] }

/-- A callee that receives a word in an invoke and sends it back. -/
def relaying : Function where
  id := ⟨3⟩
  symbol := .named "NewCallee_b"
  result := .void
  params := [⟨0, .named "result", .bytePointer, []⟩, ⟨1, .named "args", .bytePointer, []⟩]
  blocks := [
    { id := 2
      ident := .named "entry"
      insts := [⟨3, .named "word", .pointer (.int 64) 0, .alloca [] (.int 64) none 0 0, []⟩]
      term := ⟨4, .number 0, .void, .invoke (handing receive) (.block 5) (.block 8), []⟩ },
    { id := 5
      ident := .named "done"
      insts := [⟨6, .number 0, .void, .call "" (handing send), []⟩]
      term := ⟨7, .number 0, .void, .ret none, []⟩ },
    { id := 8
      ident := .named "lost"
      insts := [⟨9, .named "pad", .struct false [.bytePointer, .int 32], .landingPad true [], []⟩]
      term := ⟨10, .number 0, .void, .unreachable, []⟩ }]

def program : Module where
  functions := [receive, send, relaying]

def receiving : CallSite := ⟨2, none, 4, .number 0, .void, handing receive, [], some (.block 5, .block 8)⟩

def sending : CallSite := ⟨5, some 0, 6, .number 0, .void, handing send, [], none⟩

theorem relaying_callSites : relaying.callSites = [receiving, sending] := rfl

theorem receive_name : receive.name = "main.get__arg__from__caller" := by apply Ident.shown_named (c := 'm') <;> simp

theorem send_name : send.name = "main.send__return__value__to__caller" := Halves.send_name

def knowing : Locator Unit :=
  ⟨["a", "b"], [(receive.name, receive.name), (send.name, send.name)], [], ()⟩

theorem calleeName_eq : (Locator.calleeName Bridge.inProcess program relaying receiving).run knowing = (receive.name, knowing) ∧
    (Locator.calleeName Bridge.inProcess program relaying sending).run knowing = (send.name, knowing) := by
  have called : program.calledFunction? relaying receiving = some receive := rfl
  have called' : program.calledFunction? relaying sending = some send := rfl
  have other : (receive.name == send.name) = false := by rw [receive_name, send_name]; decide
  constructor
  · rw [Locator.calleeName, called]
    exact Locator.logical_known (List.find?_cons_of_pos (beq_self_eq_true _))
  · rw [Locator.calleeName, called']
    refine Locator.logical_known ((List.find?_cons_of_neg (by simp [other])).trans ?_)
    exact List.find?_cons_of_pos (beq_self_eq_true _)

theorem findCalls :
    (MarshallingPlan.findCall Bridge.inProcess program relaying Profile.go.marshalling.receive).run knowing =
      (some receiving, knowing) ∧
    (MarshallingPlan.findCall Bridge.inProcess program relaying Profile.go.marshalling.send).run knowing =
      (some sending, knowing) := by
  obtain ⟨received, sent⟩ := calleeName_eq
  have kinds : receiving.accepts .exceptional = true ∧ receiving.accepts .ordinary = false ∧
      sending.accepts .exceptional = false ∧ sending.accepts .ordinary = true := ⟨rfl, rfl, rfl, rfl⟩
  have known : ∀ site ∈ relaying.callSites,
      ((Locator.calleeName Bridge.inProcess program relaying site).run knowing).2 = knowing := by
    rw [relaying_callSites]
    exact List.forall_mem_cons.mpr ⟨congrArg (·.2) received, List.forall_mem_singleton.mpr (congrArg (·.2) sent)⟩
  rw [findCall_known known, findCall_known known]
  simp only [firstCall, relaying_callSites, List.find?_cons, List.find?_nil, kinds, Locator.nameAt, received, sent, receive_name,
    send_name]
  exact ⟨rfl, rfl⟩

theorem planned : ∃ size size' ds, (MarshallingPlan.make Bridge.inProcess program (some relaying) Profile.go.marshalling
    Profile.go.payload).run knowing = ((some ⟨relaying.id, some receiving, sending, size, size'⟩, ds), knowing) := by
  obtain ⟨receive, sent⟩ := findCalls
  have pointer : (Value.local 3 (.pointer (.int 64) 0)).type.isPointer = true := rfl
  obtain ⟨size, _, received⟩ := MarshallingPlan.copySize_ok (m := program) (f := relaying)
    (show receiving.type.isVoid = true from rfl) rfl pointer (p := ⟨1, .named "args", .bytePointer, []⟩) rfl
    (if Profile.go.payload.size = 0 then .standard else Profile.go.payload)
  obtain ⟨size', _, sized⟩ := MarshallingPlan.copySize_ok (m := program) (f := relaying)
    (show sending.type.isVoid = true from rfl) rfl pointer (p := ⟨0, .named "result", .bytePointer, []⟩) rfl
    (if Profile.go.payload.size = 0 then .standard else Profile.go.payload)
  have params : relaying.params = [⟨0, .named "result", .bytePointer, []⟩, ⟨1, .named "args", .bytePointer, []⟩] := rfl
  obtain ⟨ds, made⟩ := MarshallingPlan.make_of_calls Profile.go.marshalling Profile.go.payload rfl params receive sent received sized
  exact ⟨_, _, ds, made⟩

theorem program_coherent : program.Coherent where
  distinct := by
    change List.Nodup [SymbolId.mk 1, ⟨2⟩, ⟨3⟩]
    decide
  functions := by
    simp only [program, List.forall_mem_cons]
    refine ⟨(outside_wellFormed 1 _ _).toCoherent, (outside_wellFormed 2 _ _).toCoherent, ⟨?_, ?_⟩, List.forall_mem_nil _⟩
    · decide
    · simp [relaying, Terminator.targets]

end Relay

end CallFusion
