import CallFusion.Proofs.Ir.Cloning
import CallFusion.Proofs.Ir.Sites
import CallFusion.Proofs.Merge.Naming
import CallFusion.Proofs.Merge.Renaming

/-!
What the checks ahead of the first edit establish. A redirection and a merge name functions and call sites
of the module, the call they put in may take the stub call's place, and a plan for the marshalling calls
names calls of the copy whose results code does not use.
-/

namespace CallFusion

open Ir

variable {σ : Type}

theorem resultConflict?_eq_none {m : Module} {rpc : RpcSite} {target : Function}
    (agree : resultConflict? m rpc target = none) :
    rpc.site.type.same target.result = true ∨ (rpc.caller.codeUses rpc.site.value).isEmpty = true := by
  unfold resultConflict? at agree
  dsimp only at agree
  split at agree
  · next passed => exact Bool.or_eq_true _ _ ▸ passed
  · cases agree

theorem select?_writesOut {f : Function} {site : CallSite} (listed : site ∈ f.callSites) {positions : List Nat}
    {args : List (Argument Value)} (selected : CallSite.select? site positions = some args) {node : Meta}
    (passed : .debugNode node ∈ args) : f.WritesOut node := by
  obtain ⟨old, member, bare⟩ := select?_mem selected _ passed
  have written : old = .debugNode node := by cases old <;> simp_all [Argument.bare]
  subst written
  obtain ⟨b, inside, found⟩ := List.mem_flatMap.mp listed
  refine Function.writesOut_iff.mpr ⟨b, inside, ?_⟩
  rcases CallSite.cases_of_mem found with ⟨i, carried, _, _, op, _⟩ | ⟨_, _, op, _⟩
  · exact .inl ⟨i, carried, by rw [op]; exact member⟩
  · exact .inr (by rw [op]; exact member)

/-- A stub call of the module, and arguments and a result type that a call in its place may have. -/
structure RpcSite.Replaceable (rpc : RpcSite) (m : Module) (args : List (Argument Value)) (type : Ty) : Prop where
  caller : rpc.caller ∈ m.functions
  site : rpc.site ∈ rpc.caller.callSites
  tuples : ∀ node, .debugNode node ∈ args → rpc.caller.WritesOut node
  args : ∀ o ∈ args.flatMap Argument.operands, o ∈ rpc.caller.operands
  free : rpc.site.type.same type = true ∨ rpc.caller.UnusedInCode rpc.site.id

theorem mem_direct_operands {callee : Value} {args : List (Argument Value)} {o : Operand Value} :
    o ∈ (Operation.call "" { callee := callee, args := args }).operands ↔
      o = .code callee ∨ o ∈ args.flatMap Argument.operands := by
  simp [Operation.operands, Call.bundleOperands, Call.argOperands]

namespace RpcSite.Replaceable

variable {rpc : RpcSite} {m : Module} {args : List (Argument Value)} {type : Ty}

theorem accepts (replaceable : rpc.Replaceable m args type) (target : Function) :
    rpc.caller.Accepts rpc.site { callee := target.value, args := args } type := by
  refine replaceable.free.imp_right fun code => ⟨code, fun o present debug => ?_⟩
  rcases mem_direct_operands.mp present with rfl | passed
  · exact fun held => nomatch held
  · exact code o (replaceable.args o passed) debug

theorem of_checks {positions : List Nat} {target : Function} (caller : rpc.caller ∈ m.functions)
    (site : rpc.site ∈ rpc.caller.callSites) (selected : CallSite.select? rpc.site positions = some args)
    (agree : resultConflict? m rpc target = none) : rpc.Replaceable m args target.result where
  caller := caller
  site := site
  tuples := fun _ passed => select?_writesOut site selected passed
  args := fun o passed => CallSite.argOperands_of_mem site (select?_operands selected o passed)
  free := (resultConflict?_eq_none agree).imp_right rpc.caller.codeUses_isEmpty_iff.mp

end RpcSite.Replaceable

theorem paramConflict?_eq_none {target : Function} {args : List (Argument Value)}
    (agree : paramConflict? target args = none) : target.Takes args := by
  unfold paramConflict? at agree
  split at agree
  · cases agree
  · next lengths =>
    refine List.forall₂_iff_zip.mpr ⟨by simpa using lengths, fun {p a} paired => ?_⟩
    obtain ⟨i, found⟩ := List.mem_iff_getElem?.mp paired
    have passed := List.findSome?_eq_none_iff.mp agree ((p, a), i) (List.mem_zipIdx_iff_getElem?.mpr found)
    by_contra differ
    simp [differ] at passed

structure Redirection.Checked (r : Redirection) (m : Module) : Prop where
  replaceable : r.rpc.Replaceable m r.args r.target.result
  target : r.target ∈ m.functions
  takes : r.target.Takes r.args

theorem findRedirection_checked {bridge : Bridge σ} {mode : Mode} {p : Profile} {caller callee : String} {m : Module}
    {l : Locator σ} {r : Redirection}
    (found : ((findRedirection bridge mode p caller callee m).run l).1 = .ok r) : r.Checked m := by
  rw [findRedirection] at found
  split at found
  · cases found
  · extract_lets tried at found
    split at found
    · cases found
    · next target known =>
      rw [run_bind] at found
      split at found
      · cases found
      · next rpc located =>
        split at found
        · cases found
        · next args selected =>
          split at found
          · cases found
          · next free =>
            cases found
            obtain ⟨listed, site⟩ := findRpc_mem located
            obtain ⟨name, _, named⟩ := List.exists_of_findSome?_eq_some known
            rw [Option.orElse_eq_orElse, Option.orElse_eq_or, Option.or_eq_none_iff] at free
            exact ⟨.of_checks listed site selected free.2, (findFunction_mem named).1, paramConflict?_eq_none free.1⟩

/-- A marshalling call that a copy may take the place of. -/
structure Elidable (f : Function) (site : CallSite) : Prop where
  listed : site ∈ f.callSites
  free : site.type.isVoid = true ∨ f.UnusedInCode site.id
  buffer : ∃ attrs v, site.arg? 0 = some (.value attrs v) ∧ v.type.isPointer = true

theorem copySize_elidable {m : Module} {f : Function} {payload : Payload} {site : CallSite} {buffer : Param}
    {answer : UInt64 × Diagnostics} (listed : site ∈ f.callSites)
    (sized : MarshallingPlan.copySize m f payload site buffer = .ok answer) : Elidable f site := by
  unfold MarshallingPlan.copySize at sized
  dsimp only at sized
  split at sized
  · cases sized
  · next unused =>
    split at sized
    · next attrs v first =>
      split at sized
      · cases sized
      · next pointer =>
        refine ⟨listed, ?_, attrs, v, first, by simpa using pointer⟩
        rw [← Function.codeUses_isEmpty_iff (t := site.type), ← CallSite.value]
        simpa [Bool.and_eq_true, or_iff_not_imp_left] using unused
    · cases sized

namespace MarshallingPlan

/-- A plan for the marshalling calls of a function. -/
structure Fits (plan : MarshallingPlan) (f : Function) : Prop where
  function : plan.function = f.id
  params : ∃ result args rest, f.params = result :: args :: rest
  receive : ∀ site, plan.receive = some site → Elidable f site
  send : Elidable f plan.send

def copies (plan : MarshallingPlan) : List (CallSite × UInt64) :=
  plan.receive.toList.map (·, plan.receiveSize) ++ [(plan.send, plan.sendSize)]

/-- A plan for the marshalling calls of a function, made of the calls that were found for the two names. -/
structure Made (bridge : Bridge σ) (m : Module) (f : Function) (names : MarshallingNames) (l : Locator σ)
    (plan : MarshallingPlan) (ds : Diagnostics) : Prop where
  fits : plan.Fits f
  notes : Diagnostics.Notes ds
  receive : ((findCall bridge m f names.receive).run l).1 = plan.receive
  send : ((findCall bridge m f names.send).run ((findCall bridge m f names.receive).run l).2).1 = some plan.send
  sizes : ∀ e ∈ plan.copies, ∃ payload buffer noted, copySize m f payload e.1 buffer = .ok (e.2, noted)

theorem copySize_ok {m : Module} {f : Function} {site : CallSite} {attrs : List String} {buffer : Value} {p : Param}
    (void : site.type.isVoid = true) (first : site.arg? 0 = some (.value attrs buffer)) (pointer : buffer.type.isPointer = true)
    (parameter : p.type.isPointer = true) (payload : Payload) :
    ∃ size noted, copySize m f payload site p = .ok (size, noted) := by
  unfold copySize
  simp only [void, Bool.not_true, Bool.false_and, Bool.false_eq_true, if_false, first, pointer, parameter]
  split <;> exact ⟨_, _, rfl⟩

theorem make_of_calls {bridge : Bridge σ} {m : Module} {f : Function} (names : MarshallingNames) (payload : Payload)
    {l k k' : Locator σ} {receive? : Option CallSite} {send : CallSite} {result args : Param} {rest : List Param}
    {size size' : UInt64} {noted noted' : Diagnostics}
    (body : f.isDeclaration = false) (params : f.params = result :: args :: rest)
    (receive : (findCall bridge m f names.receive).run l = (receive?, k))
    (sent : (findCall bridge m f names.send).run k = (some send, k'))
    (received : receive?.elim (.ok (0, [])) (copySize m f (if payload.size = 0 then .standard else payload) · args) =
      .ok (size, noted))
    (sized : copySize m f (if payload.size = 0 then .standard else payload) send result = .ok (size', noted')) :
    ∃ ds, (make bridge m (some f) names payload).run l = ((some ⟨f.id, receive?, send, size, size'⟩, ds), k') := by
  have given : (some f).filter (!·.isDeclaration) = some f := by rw [Option.filter_some, body]; rfl
  simp only [make, given, run_bind, receive, sent, params]
  cases receive? with
  | none =>
    cases received
    simp only [sized]
    exact ⟨_, rfl⟩
  | some site =>
    rw [Option.elim_some] at received
    simp only [received, sized]
    exact ⟨_, rfl⟩

theorem make_of_send {bridge : Bridge σ} {m : Module} {f : Function} (names : MarshallingNames) (payload : Payload)
    {l k k' : Locator σ} {send : CallSite} {result args : Param} {rest : List Param} {size : UInt64} {noted : Diagnostics}
    (body : f.isDeclaration = false) (params : f.params = result :: args :: rest)
    (receive : (findCall bridge m f names.receive).run l = (none, k))
    (sent : (findCall bridge m f names.send).run k = (some send, k'))
    (sized : copySize m f (if payload.size = 0 then .standard else payload) send result = .ok (size, noted)) :
    ∃ ds, (make bridge m (some f) names payload).run l = ((some ⟨f.id, none, send, 0, size⟩, ds), k') :=
  make_of_calls names payload body params receive sent rfl sized

theorem make_cases {bridge : Bridge σ} {m : Module} {f : Function} {names : MarshallingNames} {payload : Payload}
    {l l' : Locator σ} {answer : Option MarshallingPlan} {ds : Diagnostics}
    (made : (make bridge m (some f) names payload).run l = ((answer, ds), l')) :
    (answer = none ∧ ∃ d ∈ ds, d.kind ≠ .note) ∨ ∃ plan, answer = some plan ∧ Made bridge m f names l plan ds ∧
      l' = ((findCall bridge m f names.send).run ((findCall bridge m f names.receive).run l).2).2 := by
  rw [make] at made
  split at made
  · cases made
    refine .inl ⟨rfl, _, List.mem_singleton.mpr rfl, ?_⟩
    intro same
    cases same
  · next g body =>
    obtain rfl : f = g := (Option.filter_eq_some_iff.mp body).1 |> Option.some.inj
    extract_lets size at made
    rw [run_bind] at made
    extract_lets noted at made
    have quiet : Diagnostics.Notes noted := by
      simp only [noted]
      split
      · exact .nil
      · exact .single _
    clear_value noted
    rw [run_bind] at made
    split at made
    · cases made
      refine .inl ⟨rfl, _, List.mem_append_right _ (List.mem_singleton.mpr rfl), ?_⟩
      intro same
      cases same
    · next send sent =>
      split at made
      · next result args rest params =>
        extract_lets received at made
        have known : ∀ site, ((findCall bridge m f names.receive).run l).1 = some site →
            received = copySize m f size site args := by
          intro site found
          simp only [received]
          rw [found]
        have none : ((findCall bridge m f names.receive).run l).1 = none → received = .ok (0, []) := by
          intro missing
          simp only [received]
          rw [missing]
        clear_value received
        -- without a receive there is no error here, so one that is found is about the size of the receive
        split at made
        · next d =>
          cases made
          refine .inl ⟨rfl, d, List.mem_append_right _ (List.mem_singleton.mpr rfl), ?_⟩
          cases found : ((findCall bridge m f names.receive).run l).1 with
          | none => cases none found
          | some site => exact copySize_error (known site found).symm
        · next receiveSize ds =>
          have small : Diagnostics.Notes ds := by
            cases found : ((findCall bridge m f names.receive).run l).1 with
            | none =>
              cases none found
              exact .nil
            | some site => exact copySize_notes (known site found).symm
          split at made
          · next d failed =>
            cases made
            exact .inl ⟨rfl, d, List.mem_append_right _ (List.mem_singleton.mpr rfl), copySize_error failed⟩
          · next sendSize ds' sendSized =>
            cases made
            refine .inr ⟨_, rfl, ⟨⟨rfl, ⟨result, args, rest, params⟩, fun site found => ?_,
              copySize_elidable (findCall_mem sent) sendSized⟩, (quiet.append small).append (copySize_notes sendSized),
              rfl, sent, fun e listed => ?_⟩, rfl⟩
            · exact copySize_elidable (findCall_mem found) (known site found).symm
            · rcases List.mem_append.mp listed with received | last
              · obtain ⟨site, found, rfl⟩ := List.mem_map.mp received
                exact ⟨_, _, _, (known site (Option.mem_toList.mp found)).symm⟩
              · obtain rfl := List.mem_singleton.mp last
                exact ⟨_, _, _, sendSized⟩
      · cases made
        refine .inl ⟨rfl, _, List.mem_append_right _ (List.mem_singleton.mpr rfl), ?_⟩
        intro same
        cases same

theorem made_of_found {bridge : Bridge σ} {m : Module} {f : Function} {names : MarshallingNames} {payload : Payload}
    {l : Locator σ} {plan : MarshallingPlan} (found : ((make bridge m (some f) names payload).run l).1.1 = some plan) :
    Made bridge m f names l plan ((make bridge m (some f) names payload).run l).1.2 := by
  rcases make_cases rfl with ⟨none, _⟩ | ⟨other, same, made, _⟩
  · cases none.symm.trans found
  · cases same.symm.trans found
    exact made

end MarshallingPlan

namespace MergePlan

/-- What a merge is planned with, found in the module and checked. -/
structure Checked (plan : MergePlan) (merged : String) (m : Module) : Prop where
  source : plan.source ∈ m.functions
  unmerged : m.findFunction merged = none
  cloned : plan.source.withSignature (plan.args.map (·.type)) merged m.freshSymbol = .ok plan.clone
  replaceable : plan.rpc.Replaceable m plan.args plan.clone.result
  marshalling : ∀ e, plan.marshalling = some e → e.Fits plan.clone
  notes : ∀ e, plan.marshalling = some e → Diagnostics.Notes plan.found

end MergePlan

/-- A merge that is planned has passed its checks, and the last that was searched for are the marshalling calls. -/
theorem planMerge_found {bridge : Bridge σ} {p : Profile} {caller callee : String} {m : Module} {l l' : Locator σ}
    {plan : MergePlan} (planned : (planMerge bridge p caller callee m).run l = (.ok plan, l')) :
    plan.Checked (p.mergedCalleeName callee) m ∧ ∃ between,
      (MarshallingPlan.make bridge m (some plan.clone) p.marshalling p.payload).run between =
        ((plan.marshalling, plan.found), l') := by
  rw [planMerge] at planned
  split at planned
  · cases planned
  · split at planned
    · cases planned
    · extract_lets merged at planned
      split at planned
      · cases planned
      · next source known =>
        split at planned
        · cases planned
        · next unmerged =>
          rw [run_bind] at planned
          split at planned
          · cases planned
          · next rpc located =>
            split at planned
            · cases planned
            · next args selected =>
              split at planned
              · cases planned
              · next clone cloned =>
                split at planned
                · cases planned
                · next agree =>
                  rw [run_bind] at planned
                  cases planned
                  obtain ⟨caller, site⟩ := findRpc_mem located
                  exact ⟨⟨(findFunction_mem known).1, by simpa using unmerged, cloned,
                    .of_checks caller site selected agree, fun e found => (MarshallingPlan.made_of_found found).fits,
                    fun e found => (MarshallingPlan.made_of_found found).notes⟩, _, rfl⟩

theorem planMerge_checked {bridge : Bridge σ} {p : Profile} {caller callee : String} {m : Module} {l : Locator σ}
    {plan : MergePlan} (planned : ((planMerge bridge p caller callee m).run l).1 = .ok plan) :
    plan.Checked (p.mergedCalleeName callee) m :=
  (planMerge_found (Prod.ext planned rfl)).1

theorem planMerge_ok {bridge : Bridge σ} {p : Profile} {caller callee : String} {m : Module} {l l' : Locator σ}
    {source clone : Function} {rpc : RpcSite} {args : List (Argument Value)}
    (named : caller.isEmpty = false ∧ callee.isEmpty = false)
    (present : m.findFunction (p.realCalleeName callee) = some source)
    (fresh : m.findFunction (p.mergedCalleeName callee) = none)
    (held : (findRpc bridge m p caller callee).run l = (.ok rpc, l'))
    (selected : CallSite.select? rpc.site p.positions = some args)
    (cloned : source.withSignature (args.map (·.type)) (p.mergedCalleeName callee) m.freshSymbol = .ok clone)
    (agree : resultConflict? m rpc clone = none) :
    ((planMerge bridge p caller callee m).run l).1 =
      let made := ((MarshallingPlan.make bridge m (some clone) p.marshalling p.payload).run l').1
      .ok ⟨source, rpc, args, clone, made.1, made.2⟩ := by
  simp only [planMerge, named, present, fresh, Bool.false_eq_true, Option.isSome_none, if_false]
  simp only [run_bind, held, selected, cloned, agree, run_pure]

def outside (id : Nat) (name : String) (types : List Ty) : Function where
  id := ⟨id⟩
  symbol := .named name
  result := .void
  params := types.mapIdx fun i type => ⟨i, .number i, type, []⟩

def nullCall (target : Function) : CallSite :=
  ⟨0, some 0, 1, .number 0, .void,
    { callee := target.value, args := target.params.map fun p => .value [] (.const 4 (.null p.type)) }, [], none⟩

def calling (id : Nat) (name : String) (target : Function) : Function where
  id := ⟨id⟩
  symbol := .named name
  result := .void
  params := []
  blocks := [{
    id := 0
    ident := .named "entry"
    insts := [⟨1, .number 0, .void, .call "" (nullCall target).call, []⟩]
    term := ⟨2, .number 0, .void, .ret none, []⟩ }]

theorem outside_wellFormed (id : Nat) (name : String) (types : List Ty) : (outside id name types).WellFormed := by
  have ids : (outside id name types).params.map (·.id) = List.range types.length := by
    simp only [outside, List.mapIdx_eq_zipIdx_map, List.map_map, List.range_eq_range']
    exact List.zipIdx_map_snd 0 types
  exact Function.wellFormed_of_declaration rfl (ids ▸ List.nodup_range)

theorem outside_names {id : Nat} {name : String} {types : List Ty} {symbol : SymbolId} :
    ¬ (outside id name types).Names symbol := by
  intro named
  rcases named with ⟨o, present, _⟩ | ⟨c, personality, _⟩
  · cases present
  · cases personality

theorem mem_calling_operands {id : Nat} {name : String} {target : Function} {o : Operand Value}
    (present : o ∈ (calling id name target).operands) : o.value = target.value ∨ ∃ type, o.value = .const 4 (.null type) := by
  have inCall : o ∈ (Operation.call "" (nullCall target).call).operands := by
    simpa [calling, Function.operands, Block.operands, Terminator.operands] using present
  rcases mem_direct_operands.mp inCall with rfl | passed
  · exact .inl rfl
  · obtain ⟨arg, listed, held⟩ := List.mem_flatMap.mp passed
    obtain ⟨p, _, rfl⟩ := List.mem_map.mp listed
    have same := List.mem_singleton.mp held
    exact .inr ⟨p.type, congrArg Operand.value same⟩

theorem calling_wellFormed (id : Nat) (name : String) (target : Function) : (calling id name target).WellFormed where
  numbered := by
    change List.Nodup [0, 1, 2]
    decide
  directed := by simp [calling, Terminator.targets]
  joined := by simp [calling, Function.Joins]
  owned := by
    intro o present
    rcases mem_calling_operands present with same | ⟨type, same⟩
    · rw [same]
      trivial
    · rw [same]
      trivial

theorem calling_names {id : Nat} {name : String} {target : Function} {symbol : SymbolId}
    (named : (calling id name target).Names symbol) : symbol = target.id := by
  rcases named with ⟨o, present, names⟩ | ⟨c, personality, _⟩
  · rcases mem_calling_operands present with same | ⟨type, same⟩
    · rw [same] at names
      exact Function.value_names names
    · rw [same] at names
      have mentioned := (Value.mentions_iff _ _).mpr names
      cases mentioned
  · cases personality

theorem sound_of_functions {fs : List Function} (distinct : (fs.map (·.id)).Nodup) (functions : ∀ f ∈ fs, f.WellFormed)
    (declared : ∀ f ∈ fs, ∀ id, f.Names id → ∃ g ∈ fs, g.id = id) : ({ functions := fs } : Module).Sound where
  distinct := by simpa [Module.symbolIds] using distinct
  functions := functions
  declared := by
    rintro id (⟨f, listed, named⟩ | ⟨g, listed, _⟩ | ⟨d, listed, _⟩)
    · exact .inl (declared f listed id named)
    · cases listed
    · cases listed

namespace Halves

def stub : Function := outside 1 "main.make__rpc" (List.replicate 5 .bytePointer)

def send : Function := outside 2 "main.send__return__value__to__caller" [.bytePointer]

def copier (width : UInt64) : Function := outside 3 copyName [.bytePointer, .bytePointer, .int width, .int 1]

def source : Function := calling 4 "main_2nd_for_b" send

def caller : Function := calling 5 "main.main" stub

def wrapper : Function := outside 6 "main.wrapper__go2c" (List.replicate 3 .bytePointer)

/-- The two halves of a program, with a copy intrinsic whose lengths have the given width. -/
def program (width : UInt64) : Module where
  functions := [stub, send, copier width, source, caller, wrapper]

theorem stub_name : stub.name = "main.make__rpc" := by apply Ident.shown_named (c := 'm') <;> simp

theorem send_name : send.name = "main.send__return__value__to__caller" := by apply Ident.shown_named (c := 'm') <;> simp

theorem copier_name (width : UInt64) : (copier width).name = "llvm.memcpy.p0i8.p0i8.i64" := by
  apply Ident.shown_named (c := 'l') <;> simp [copyName]

theorem source_name : source.name = "main_2nd_for_b" := by apply Ident.shown_named (c := 'm') <;> simp

theorem caller_name : caller.name = "main.main" := by apply Ident.shown_named (c := 'm') <;> simp

theorem wrapper_name : wrapper.name = "main.wrapper__go2c" := by apply Ident.shown_named (c := 'm') <;> simp

theorem findFunction_eq (width : UInt64) (name : String) : (program width).findFunction name =
    if name = "main.make__rpc" then some stub
    else if name = "main.send__return__value__to__caller" then some send
    else if name = "llvm.memcpy.p0i8.p0i8.i64" then some (copier width)
    else if name = "main_2nd_for_b" then some source
    else if name = "main.main" then some caller
    else if name = "main.wrapper__go2c" then some wrapper
    else none := by
  simp only [Module.findFunction, program, List.find?_cons, List.find?_nil, stub_name, send_name, copier_name, source_name,
    caller_name, wrapper_name]
  grind

theorem program_sound (width : UInt64) : (program width).Sound := by
  apply sound_of_functions
  case distinct =>
    change List.Nodup [SymbolId.mk 1, ⟨2⟩, ⟨3⟩, ⟨4⟩, ⟨5⟩, ⟨6⟩]
    decide
  case functions =>
    simp only [List.forall_mem_cons]
    exact ⟨outside_wellFormed _ _ _, outside_wellFormed _ _ _, outside_wellFormed _ _ _, calling_wellFormed _ _ _,
      calling_wellFormed _ _ _, outside_wellFormed _ _ _, List.forall_mem_nil _⟩
  case declared =>
    simp only [List.forall_mem_cons]
    refine ⟨fun _ named => absurd named outside_names, fun _ named => absurd named outside_names,
      fun _ named => absurd named outside_names, fun _ named => ⟨send, ?_, (calling_names named).symm⟩,
      fun _ named => ⟨stub, ?_, (calling_names named).symm⟩, fun _ named => absurd named outside_names, List.forall_mem_nil _⟩
    · simp
    · simp

theorem logical_eq {name : String} (known : name = "main.make__rpc" ∨ name = "main.send__return__value__to__caller")
    {l : Locator Unit} (suffixes : l.suffixes = ["a", "b"]) (fresh : l.names.find? (·.1 == name) = none) :
    (Locator.logical Bridge.inProcess name).run l = (name, { l with names := (name, name) :: l.names }) := by
  have endsWith : ∀ s t : String, s.endsWith t = t.toList.isSuffixOf s.toList := by
    intro s t
    rw [Bool.eq_iff_iff, ← String.endsWith_toSlice, String.Slice.endsWith_string_iff, List.isSuffixOf_iff_suffix]
    simp
  refine Locator.logical_plain ?_ ?_ ?_ fresh
  · rcases known with rfl | rfl <;> simp [Symbol.logicalName, Symbol.looksMangled]
  · rcases known with rfl | rfl <;> decide +kernel
  · simp only [Locator.stripSuffix, suffixes, Locator.stripWith, endsWith]
    rcases known with rfl | rfl <;> rfl

def locator : Locator Unit := ⟨["a", "b"], [("main.make__rpc", "main.make__rpc")], [], ()⟩

theorem findRpc_of_caller {m : Module} (unmerged : m.findFunction "NewCallee_a" = none)
    (entry : m.findFunction "main_a" = none) (present : m.findFunction "main.main" = some caller)
    (suffixed : m.findFunction "main.main_a" = none) (stubbed : m.function? stub.id = some stub) :
    (findRpc Bridge.inProcess m .go "a" "b").run (Locator.new ["a", "b"] ()) = (.ok ⟨caller, nullCall stub⟩, locator) := by
  have candidates : callerCandidates m .go "a" = [caller] := by
    simp [callerCandidates, unmerged, entry, present, suffixed, Profile.mergedCalleeName, Profile.go]
    rfl
  have called : m.calledFunction? caller (nullCall stub) = some stub := stubbed
  have named : (Locator.calleeName Bridge.inProcess m caller (nullCall stub)).run (Locator.new ["a", "b"] ()) =
      ("main.make__rpc", locator) := by
    simp only [Locator.calleeName, called, stub_name]
    exact logical_eq (.inl rfl) rfl rfl
  have accepted : (nullCall stub).accepts .any = true := rfl
  have found := Locator.findMatch_only rfl accepted (isRpcFor m caller .go "b") named
  rw [if_pos (by rfl)] at found
  rw [findRpc, candidates, if_neg (by simp)]
  simp only [rpcIn, run_bind, found]
  rfl

theorem findRpc_eq (width : UInt64) :
    (findRpc Bridge.inProcess (program width) .go "a" "b").run (Locator.new ["a", "b"] ()) =
      (.ok ⟨caller, nullCall stub⟩, locator) :=
  findRpc_of_caller (by simp [findFunction_eq]) (by simp [findFunction_eq]) (by simp [findFunction_eq])
    (by simp [findFunction_eq]) rfl

def merged : Function :=
  { calling 7 "NewCallee_b" send with params := [3, 4, 5].map fun i => ⟨i, .number 0, .bytePointer, []⟩ }

theorem findCall_send {m : Module} {f : Function} (ordinary : ∀ site ∈ f.callSites, site.kind = .ordinary)
    (called : ∀ site ∈ f.callSites, m.calledFunction? f site = some send) (some : f.callSites ≠ []) : ∃ l,
      (MarshallingPlan.findCall Bridge.inProcess m f Profile.go.marshalling.receive).run locator = (none, l) ∧
      (MarshallingPlan.findCall Bridge.inProcess m f Profile.go.marshalling.send).run l = (f.callSites.head?, l) := by
  have asked := logical_eq (l := locator) (.inr send_name) rfl (by rw [send_name]; decide)
  have known : (Locator.logical Bridge.inProcess send.name).run
      { locator with names := (send.name, send.name) :: locator.names } = (send.name, _) :=
    Locator.logical_known (List.find?_cons_of_pos (beq_self_eq_true send.name))
  have receive := findCall_alike ordinary called some asked Profile.go.marshalling.receive
  have send := findCall_alike ordinary called some known Profile.go.marshalling.send
  rw [send_name, if_neg (by decide)] at receive
  rw [send_name, if_pos (by decide)] at send
  exact ⟨_, receive, send⟩

theorem make_eq (width : UInt64) : ∃ size,
    ((MarshallingPlan.make Bridge.inProcess (program width) (some merged) Profile.go.marshalling Profile.go.payload).run
      locator).1.1 = some ⟨merged.id, none, nullCall send, 0, size⟩ := by
  have only : ∀ site ∈ merged.callSites, site = nullCall Halves.send := fun site listed => List.mem_singleton.mp listed
  obtain ⟨l, receive, send⟩ := findCall_send (m := program width) (fun site listed => only site listed ▸ rfl)
    (fun site listed => only site listed ▸ rfl) (List.cons_ne_nil _ _)
  obtain ⟨_, made⟩ := MarshallingPlan.make_of_send Profile.go.marshalling Profile.go.payload rfl rfl receive send rfl
  exact ⟨_, congrArg (·.1.1) made⟩

theorem planMerge_eq (width : UInt64) : ∃ args size found,
    ((planMerge Bridge.inProcess .go "a" "b" (program width)).run (Locator.new ["a", "b"] ())).1 =
      .ok ⟨source, ⟨caller, nullCall stub⟩, args, merged, some ⟨merged.id, none, nullCall send, 0, size⟩,
        found⟩ := by
  have present : (program width).findFunction (Profile.go.realCalleeName "b") = some source := by
    simp [findFunction_eq, Profile.realCalleeName, Profile.go]
  have fresh : (program width).findFunction (Profile.go.mergedCalleeName "b") = none := by
    simp [findFunction_eq, Profile.mergedCalleeName, Profile.go]
  have cloned : source.withSignature [.bytePointer, .bytePointer, .bytePointer] (Profile.go.mergedCalleeName "b")
      (program width).freshSymbol = .ok merged := rfl
  have planned := planMerge_ok ⟨by decide, by decide⟩ present fresh (findRpc_eq width) rfl cloned rfl
  obtain ⟨size, made⟩ := make_eq width
  simp only [made] at planned
  exact ⟨_, size, _, planned⟩

theorem findRedirection_isOk (width : UInt64) : ∃ r,
    ((findRedirection Bridge.inProcess .mergeExisting .go "a" "b" (program width)).run
      (Locator.new ["a", "b"] ())).1 = .ok r := by
  have target : ([Profile.go.mergedCalleeName "b"] ++ [Profile.go.existingCallee]).findSome?
      (program width).findFunction = some wrapper := by
    simp [findFunction_eq, Profile.mergedCalleeName, Profile.go]
  have named : "b".isEmpty = false := by decide
  have known : Profile.go.existingCallee.isEmpty = false := by decide
  rw [findRedirection, if_neg (by decide)]
  simp only [named, known, Bool.false_eq_true, if_false, target, run_bind, findRpc_eq]
  exact ⟨_, rfl⟩

end Halves

end CallFusion
