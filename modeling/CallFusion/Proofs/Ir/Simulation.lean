import CallFusion.Proofs.Ir.Lowering

/-!
Lowering an invoke to a call keeps what a function does, apart from unwinding there. Executions of the two
functions go through the same blocks with the same memory and the same values, the result of the invoke
being that of the call; where one makes the step of the invoke, the other makes those of the call and the
branch behind it.
-/

namespace CallFusion.Ir

variable {Val Mem : Type}

/-- The values of locals before and after the result of one call became that of another. -/
structure Renamed (old new : LocalId) (env env' : Env Val) : Prop where
  same : ∀ id, id ≠ old → id ≠ new → env' id = env id
  moved : env' new = env old

namespace Renamed

variable {old new id : LocalId} {env env' : Env Val}

theorem set (renamed : Renamed old new env env') (notOld : id ≠ old) (notNew : id ≠ new) (r : Option Val) :
    Renamed old new (env.set id r) (env'.set id r) where
  same := by
    intro x other apart
    by_cases here : x = id
    · simp [Env.set, here]
    · simp [Env.set, here, renamed.same x other apart]
  moved := by
    simp [Env.set, Ne.symm notOld, Ne.symm notNew, renamed.moved]

theorem set_result (renamed : Renamed old new env env') (r : Option Val) :
    Renamed old new (env.set old r) (env'.set new r) where
  same := by
    intro x other apart
    simp [Env.set, other, apart, renamed.same x other apart]
  moved := by simp [Env.set]

end Renamed

theorem CallSite.rename_of_agree {site : CallSite} {type : Ty} (agree : site.type.same type = true) (new : Value)
    (debug : Bool) (v : Value) : site.rename type new debug v = v.substitute site.id new := by
  rw [CallSite.rename, CallSite.detach_of_same agree]

namespace Lowering

/-- Configurations of a function and of the one with a lowered invoke that are at the same place, with the same
memory and, the invoke's result being that of the call, with the same values. -/
inductive Related (L : Lowering) : Config Val Mem → Config Val Mem → Prop
  | running {block : LocalId} {pc : Nat} {env env' : Env Val} {mem : Mem} (renamed : Renamed L.site.id L.new.id env env')
      (within : block = L.site.block → pc ≤ L.home.insts.length) :
      L.Related (.running block pc env mem) (.running block pc env' mem)
  | left (op : Terminator (Option Val)) (mem : Mem) : L.Related (.left op mem) (.left op mem)
  | unwound (mem : Mem) : L.Related (.unwound mem) (.unwound mem)

/-- The call has returned and the branch behind it is due, while the other function is still at the invoke. -/
inductive Midway (L : Lowering) (S : Semantics Val Mem) : Config Val Mem → Config Val Mem → Prop
  | intro {env env' : Env Val} {mem mem' : Mem} {r : Option Val} (renamed : Renamed L.site.id L.new.id env env')
      (done : S.returns (S.eval env L.site.call.callee) (S.args env L.site.call) mem r mem') :
      L.Midway S (.running L.site.block L.home.insts.length env mem)
        (.running L.site.block (L.home.insts.length + 1) (env'.set L.new.id r) mem')

variable {d : Block} {S : Semantics Val Mem} {env env' : Env Val} {pc : Nat}

theorem eval (L : Lowering)
    (renamed : Renamed L.site.id L.new.id env env') {v : Value} (other : v.local? ≠ some L.new.id) (debug : Bool) :
    S.eval env' (L.rename debug v) = S.eval env v := by
  rw [Replacement.rename, CallSite.rename_of_agree L.agree]
  cases v with
  | «local» id t =>
    by_cases same : id = L.site.id
    · subst same
      simpa [Value.substitute, Instruction.value, Semantics.eval] using renamed.moved
    · have apart : id ≠ L.new.id := by simpa using other
      simpa [Value.substitute, same, Semantics.eval] using renamed.same id same apart
  | _ => rfl

theorem operation (L : Lowering)
    (renamed : Renamed L.site.id L.new.id env env') {op : Operation Value} (slots : ∀ o ∈ op.operands, o ∈ L.before.operands) :
    ((op.mapOperands L.rename).mapOperands fun _ => S.eval env') =
      op.mapOperands fun _ => S.eval env := by
  rw [Operation.mapOperands_mapOperands]
  exact op.mapOperands_congr fun o present => L.eval renamed (L.unmentioned (slots o present)) o.debug

theorem terminator (L : Lowering)
    (renamed : Renamed L.site.id L.new.id env env') {op : Terminator Value} (slots : ∀ o ∈ op.operands, o ∈ L.before.operands) :
    ((op.mapOperands L.rename).mapOperands fun _ => S.eval env') =
      op.mapOperands fun _ => S.eval env := by
  rw [Terminator.mapOperands_mapOperands]
  exact op.mapOperands_congr fun o present => L.eval renamed (L.unmentioned (slots o present)) o.debug

theorem arguments (L : Lowering)
    (renamed : Renamed L.site.id L.new.id env env') {c : Call Value}
    (slots : ∀ o ∈ (Operation.call "" c).operands, o ∈ L.before.operands) :
    S.args env' (c.mapOperands L.rename) = S.args env c ∧
      S.eval env' (c.mapOperands L.rename).callee = S.eval env c.callee := by
  constructor
  · simp only [Semantics.args, Call.mapOperands, List.map_map]
    apply List.map_congr_left
    intro a listed
    rw [Function.comp_apply, Argument.bare_mapOperands, Argument.mapOperands_mapOperands]
    refine a.bare.mapOperands_congr fun o present => ?_
    rw [Argument.operands_bare] at present
    have slot : o ∈ (Operation.call "" c).operands :=
      List.mem_cons_of_mem _ (List.mem_append_left _ (List.mem_flatMap.mpr ⟨a, listed, present⟩))
    exact L.eval renamed (L.unmentioned (slots o slot)) o.debug
  · exact L.eval renamed (L.unmentioned (slots _ List.mem_cons_self)) false

theorem join (L : Lowering) (renamed : Renamed L.site.id L.new.id env env')
    (within : d ∈ L.before.blocks) {source : LocalId}
    (kept : ¬ (L.site.unwind? = some d.id ∧ d.id ≠ L.normal ∧ source = L.site.block)) :
    Renamed L.site.id L.new.id (S.join env source d) (S.join env' source (L.lower d)) := by
  have phis := L.lower_phis d L.new_noPhi
  have found : ∀ id, (L.lower d).phis.find? (·.id == id) =
      (d.phis.find? (·.id == id)).map (L.lowerInst d.id) := by
    intro id
    rw [phis, List.find?_map]
    simp only [Function.comp_def, Replacement.lowerInst_id]
  have listed : ∀ {i : Instruction} {id : LocalId}, d.phis.find? (·.id == id) = some i → i ∈ d.insts ∧ i.id = id :=
    fun here => ⟨(List.takeWhile_sublist _).subset (List.mem_of_find?_eq_some here), by simpa using List.find?_some here⟩
  have absent : ∀ id, id = L.site.id ∨ id = L.new.id → d.phis.find? (·.id == id) = none := by
    intro id special
    cases here : d.phis.find? (·.id == id) with
    | none => rfl
    | some i =>
      obtain ⟨carried, same⟩ := listed here
      obtain ⟨notOld, notNew⟩ := L.inst_apart within carried
      rcases special with old | fresh
      · exact (notOld (same.trans old)).elim
      · exact (notNew (same.trans fresh)).elim
  constructor
  case same =>
    intro id notOld notNew
    simp only [Semantics.join, found]
    cases here : d.phis.find? (·.id == id) with
    | none => exact renamed.same id notOld notNew
    | some i =>
      simp only [Option.map_some, L.lowerInst_arrival? d.id source i kept]
      cases arrives : i.arrival? source with
      | none => rfl
      | some v =>
        have slot := L.inst_slots within (listed here).1 _ (arrival_slot arrives)
        exact L.eval renamed (L.unmentioned slot) false
  case moved =>
    simp only [Semantics.join, found, absent L.site.id (.inl rfl), absent L.new.id (.inr rfl), Option.map_none]
    exact renamed.moved

theorem enter (L : Lowering) (renamed : Renamed L.site.id L.new.id env env')
    (within : d ∈ L.before.blocks) {source : LocalId}
    (kept : ¬ (L.site.unwind? = some d.id ∧ d.id ≠ L.normal ∧ source = L.site.block)) (mem : Mem) :
    L.Related (S.enter env source d mem)
      (S.enter env' source (L.lower d) mem) := by
  have count : (L.lower d).phis.length = d.phis.length := by
    rw [L.lower_phis d L.new_noPhi, List.length_map]
  rw [Semantics.enter, Semantics.enter, Replacement.lower_id, count]
  refine .running (L.join renamed within kept) fun here => ?_
  rw [L.only within here]
  exact (List.takeWhile_sublist _).length_le

theorem given (L : Lowering) (renamed : Renamed L.site.id L.new.id env env') :
    S.args env' (L.call.mapOperands L.rename) = S.args env L.site.call ∧
      S.eval env' (L.call.mapOperands L.rename).callee = S.eval env L.site.call.callee := by
  obtain ⟨passed, called⟩ := L.arguments (S := S) renamed (L.invoked_slots L.member L.op)
  have bare : ∀ c : Call Value, S.args env' (c.mapOperands L.rename) =
      (c.args.map Argument.bare).map fun a => (a.mapOperands L.rename).mapOperands fun _ => S.eval env' := by
    intro c
    simp only [Semantics.args, Call.mapOperands, List.map_map, Function.comp_def, Argument.bare_mapOperands]
  constructor
  · rw [bare, L.args, ← bare]
    exact passed
  · rw [← called, Call.mapOperands, Call.mapOperands, L.callee]

theorem advanced (L : Lowering) (renamed : Renamed L.site.id L.new.id env env')
    (within : d ∈ L.before.blocks) {i : Instruction} (at_pc : d.insts[pc]? = some i) (r : Option Val) (mem : Mem) :
    L.Related (.running d.id (pc + 1) (env.set i.id r) mem)
      (.running d.id (pc + 1) (env'.set i.id r) mem) := by
  obtain ⟨notOld, notNew⟩ := L.inst_apart within (List.mem_of_getElem? at_pc)
  refine .running (renamed.set notOld notNew r) fun here => ?_
  obtain ⟨inside, _⟩ := List.getElem?_eq_some_iff.mp at_pc
  rw [← L.only within here]
  exact inside

theorem call_returns (L : Lowering)
    (renamed : Renamed L.site.id L.new.id env env') {mem mem' : Mem} {r : Option Val}
    (done : S.returns (S.eval env L.site.call.callee) (S.args env L.site.call) mem r mem') :
    S.Step L.after (.running L.site.block L.home.insts.length env' mem) none
      (.running L.site.block (L.home.insts.length + 1) (env'.set L.new.id r) mem') := by
  obtain ⟨passed, called⟩ := L.given (S := S) renamed
  have step : S.Step L.after (.running (L.lower L.home).id L.home.insts.length env' mem) none
      (.running (L.lower L.home).id (L.home.insts.length + 1)
        (env'.set (L.new.mapOperands L.rename).id r) mem') :=
    .returned (L.mem_lowered L.member) L.call_at
      (by rw [Instruction.mapOperands_op, L.calls]; rfl) (by rw [passed, called]; exact done)
  rwa [Replacement.lower_id, ← L.at_home] at step

theorem branch_taken (L : Lowering) {t : Block} (there : t ∈ L.before.blocks)
    (target : t.id = L.normal) (env' : Env Val) (mem : Mem) :
    S.Step L.after (.running L.site.block (L.home.insts.length + 1) env' mem) none
      (S.enter env' L.site.block (L.lower t) mem) := by
  have step : S.Step L.after (.running (L.lower L.home).id
      (L.lower L.home).insts.length env' mem) none
      (S.enter env' (L.lower L.home).id (L.lower t) mem) :=
    .branch (L.mem_lowered L.member)
      (by rw [Replacement.lower_term, if_pos L.at_home.symm, Replacement.lower_id, target]) (L.mem_lowered there)
  rwa [Replacement.lower_id, L.length_here L.at_home.symm, ← L.at_home] at step

theorem resumed (L : Lowering) (renamed : Renamed L.site.id L.new.id env env')
    {t : Block} (there : t ∈ L.before.blocks) (target : t.id = L.normal) (r : Option Val) (mem : Mem) :
    L.Related (S.enter (env.set L.home.term.id r) L.site.block t mem)
      (S.enter (env'.set L.new.id r) L.site.block (L.lower t) mem) := by
  rw [← L.number]
  exact L.enter (renamed.set_result r) there (fun edge => edge.2.1 target) mem

/-- A step of the function is a step of the lowered one, but that of the invoke, which is two. -/
theorem forward (L : Lowering) {c c' e : Config Val Mem}
    {label : Option LocalId} (related : L.Related c e)
    (step : S.Step L.before c label c') (avoids : label ≠ some L.site.id) :
    (∃ e', S.Step L.after e label e' ∧ L.Related c' e') ∨
      (label = none ∧ ∃ mid e', S.Step L.after e none mid ∧
        L.Midway S c mid ∧ S.Step L.after mid none e' ∧
        L.Related c' e') := by
  cases related with
  | left => cases step
  | unwound => cases step
  | @running at_block pc env env' mem renamed within =>
    cases step with
    | @plain d _ i _ _ mem' r here at_pc noPhi noCall done =>
      left
      have slots := L.inst_slots here (List.mem_of_getElem? at_pc)
      have step : S.Step L.after (.running (L.lower d).id pc env' mem) none
          (.running (L.lower d).id (pc + 1)
            (env'.set (i.mapOperands L.rename).id r) mem') :=
        .plain (L.mem_lowered here) (L.inst_there at_pc noPhi) (by simpa using noPhi) (by simpa using noCall)
          (by rw [Instruction.mapOperands_op, L.operation renamed slots]; exact done)
      rw [Replacement.lower_id] at step
      exact ⟨_, step, L.advanced renamed here at_pc r mem'⟩
    | @returned d _ i tail c _ _ mem' r here at_pc op done =>
      left
      have noPhi : i.op.isPhi = false := by
        rw [op]
        rfl
      obtain ⟨passed, called⟩ := L.arguments (S := S) renamed (L.call_slots here at_pc op)
      have step : S.Step L.after (.running (L.lower d).id pc env' mem) none
          (.running (L.lower d).id (pc + 1)
            (env'.set (i.mapOperands L.rename).id r) mem') :=
        .returned (L.mem_lowered here) (L.inst_there at_pc noPhi) (by rw [Instruction.mapOperands_op, op]; rfl)
          (by rw [passed, called]; exact done)
      rw [Replacement.lower_id] at step
      exact ⟨_, step, L.advanced renamed here at_pc r mem'⟩
    | @thrown d _ i tail c _ _ mem' here at_pc op done =>
      left
      have noPhi : i.op.isPhi = false := by
        rw [op]
        rfl
      obtain ⟨passed, called⟩ := L.arguments (S := S) renamed (L.call_slots here at_pc op)
      have step : S.Step L.after (.running (L.lower d).id pc env' mem)
          (some (i.mapOperands L.rename).id) (.unwound mem') :=
        .thrown (L.mem_lowered here) (L.inst_there at_pc noPhi) (by rw [Instruction.mapOperands_op, op]; rfl)
          (by rw [passed, called]; exact done)
      rw [Replacement.lower_id] at step
      exact ⟨_, step, .unwound mem'⟩
    | @branch d t _ _ here op there =>
      left
      have other := L.other_of_op here fun c n u same => by rw [op] at same; cases same
      have step : S.Step L.after (.running (L.lower d).id
          (L.lower d).insts.length env' mem) none
          (S.enter env' (L.lower d).id (L.lower t) mem) :=
        .branch (L.mem_lowered here)
          (by rw [L.term_other other, Terminal.mapOperands_op, op, Terminator.mapOperands, L.rename_block, Replacement.lower_id])
          (L.mem_lowered there)
      rw [Replacement.lower_id, L.length_other other] at step
      exact ⟨_, step, L.enter renamed there (L.edge_kept other) mem⟩
    | @normal d t c u _ _ mem' r here op there done =>
      by_cases invoke : d.id = L.site.block
      -- The invoke itself: the call returns what it returns, and the branch goes where it goes.
      · right
        obtain rfl := L.only here invoke
        have same := op
        rw [L.op, Terminator.invoke.injEq] at same
        obtain ⟨rfl, target, _⟩ := same
        have continuation : t.id = L.normal := (Value.block.inj target).symm
        rw [← L.at_home]
        exact ⟨rfl, _, _, L.call_returns renamed done, .intro renamed done,
          L.branch_taken there continuation _ mem', L.resumed renamed there continuation r mem'⟩
      · left
        obtain ⟨passed, called⟩ := L.arguments (S := S) renamed (L.invoked_slots here op)
        obtain ⟨notOld, notNew⟩ := L.term_apart here invoke
        have step : S.Step L.after (.running (L.lower d).id
            (L.lower d).insts.length env' mem) none
            (S.enter (env'.set (L.lower d).term.id r) (L.lower d).id
              (L.lower t) mem') :=
          .normal (L.mem_lowered here)
            (by rw [L.term_other invoke, Terminal.mapOperands_op, op, Terminator.mapOperands, L.rename_block,
              Replacement.lower_id])
            (L.mem_lowered there) (by rw [passed, called]; exact done)
        rw [Replacement.lower_id, L.length_other invoke, L.term_other invoke, Terminal.mapOperands_id] at step
        exact ⟨_, step, L.enter (renamed.set notOld notNew r) there (L.edge_kept invoke) mem'⟩
    | @unwind d t c n _ _ mem' here op there done =>
      left
      -- Unwinding at the invoke is the one step that has no counterpart.
      have other : d.id ≠ L.site.block := by
        intro same
        obtain rfl := L.only here same
        exact avoids (congrArg some L.number.symm)
      obtain ⟨passed, called⟩ := L.arguments (S := S) renamed (L.invoked_slots here op)
      have step : S.Step L.after (.running (L.lower d).id
          (L.lower d).insts.length env' mem)
          (some (L.lower d).term.id)
          (S.enter env' (L.lower d).id (L.lower t) mem') :=
        .unwind (L.mem_lowered here)
          (by rw [L.term_other other, Terminal.mapOperands_op, op, Terminator.mapOperands, L.rename_block, Replacement.lower_id])
          (L.mem_lowered there) (by rw [passed, called]; exact done)
      rw [Replacement.lower_id, L.length_other other, L.term_other other, Terminal.mapOperands_id] at step
      exact ⟨_, step, L.enter renamed there (L.edge_kept other) mem'⟩
    | @jump d t k _ _ mem' r here chooses target there done =>
      left
      have other := L.other_of_op here fun c n u same => by rw [same] at chooses; exact chooses
      obtain ⟨notOld, notNew⟩ := L.term_apart here other
      have step : S.Step L.after (.running (L.lower d).id
          (L.lower d).insts.length env' mem) none
          (S.enter (env'.set (L.lower d).term.id r) (L.lower d).id
            (L.lower t) mem') :=
        .jump (L.mem_lowered here) (by rw [L.term_other other]; exact (Terminator.chooses_mapOperands _ _).mpr chooses)
          (by rw [L.term_other other, Terminal.mapOperands_op, Terminator.targets_mapOperands, List.getElem?_map, target,
            Option.map_some, L.rename_block, Replacement.lower_id])
          (L.mem_lowered there)
          (by rw [L.term_other other, Terminal.mapOperands_op, L.terminator renamed (L.term_slots here)]; exact done)
      rw [Replacement.lower_id, L.length_other other, L.term_other other, Terminal.mapOperands_id] at step
      exact ⟨_, step, L.enter (renamed.set notOld notNew r) there (L.edge_kept other) mem'⟩
    | @leave d _ _ mem' r here chooses done =>
      left
      have other := L.other_of_op here fun c n u same => by rw [same] at chooses; exact chooses
      have evaluated := L.terminator (S := S) renamed (L.term_slots here)
      have step : S.Step L.after (.running (L.lower d).id
          (L.lower d).insts.length env' mem) none
          (.left ((L.lower d).term.op.mapOperands fun _ => S.eval env') mem') :=
        .leave (r := r) (L.mem_lowered here) (by rw [L.term_other other]; exact (Terminator.chooses_mapOperands _ _).mpr chooses)
          (by rw [L.term_other other, Terminal.mapOperands_op, evaluated]; exact done)
      rw [Replacement.lower_id, L.length_other other, L.term_other other, Terminal.mapOperands_op, evaluated] at step
      exact ⟨_, step, .left _ mem'⟩

/-- A step of the lowered function is a step of the function, but that of the call, which is the first half of
the invoke's. -/
theorem backward (L : Lowering) {c e e' : Config Val Mem}
    {label : Option LocalId} (related : L.Related c e)
    (step : S.Step L.after e label e') (avoids : label ≠ some L.new.id) :
    (∃ c', S.Step L.before c label c' ∧ L.Related c' e') ∨
      (label = none ∧ L.Midway S c e') := by
  cases related with
  | left => cases step
  | unwound => cases step
  | @running at_block pc env env' mem renamed within =>
    cases step with
    | @plain d' _ j _ _ mem' r here at_pc noPhi noCall done =>
      left
      obtain ⟨d, inside, rfl⟩ := L.of_mem_lowered here
      rcases L.inst_back inside at_pc with ⟨i, there, rfl⟩ | ⟨_, _, rfl⟩
      · rw [Replacement.lowerInst_isPhi] at noPhi
        have lowered := L.lowerInst_of_noPhi d.id noPhi
        have slots := L.inst_slots inside (List.mem_of_getElem? there)
        rw [lowered] at noCall done ⊢
        rw [Instruction.mapOperands_op, L.operation renamed slots] at done
        rw [Replacement.lower_id]
        exact ⟨_, .plain inside there noPhi (by simpa using noCall) done, L.advanced renamed inside there r mem'⟩
      · rw [Instruction.mapOperands_op, Operation.isCall_mapOperands, L.calls] at noCall
        cases noCall
    | @returned d' _ j tail c _ _ mem' r here at_pc op done =>
      obtain ⟨d, inside, rfl⟩ := L.of_mem_lowered here
      rw [Replacement.lower_id]
      rcases L.inst_back inside at_pc with ⟨i, there, rfl⟩ | ⟨rfl, rfl, rfl⟩
      · left
        obtain ⟨old, calls, rfl⟩ := L.call_back op
        obtain ⟨passed, called⟩ := L.arguments (S := S) renamed (L.call_slots inside there calls)
        rw [passed, called] at done
        rw [Replacement.lowerInst_id]
        exact ⟨_, .returned inside there calls done, L.advanced renamed inside there r mem'⟩
      · right
        rw [Instruction.mapOperands_op, L.calls, Operation.mapOperands, Operation.call.injEq] at op
        obtain ⟨_, rfl⟩ := op
        obtain ⟨passed, called⟩ := L.given (S := S) renamed
        rw [passed, called] at done
        rw [← L.at_home]
        exact ⟨rfl, .intro renamed done⟩
    | @thrown d' _ j tail c _ _ mem' here at_pc op done =>
      left
      obtain ⟨d, inside, rfl⟩ := L.of_mem_lowered here
      rw [Replacement.lower_id]
      rcases L.inst_back inside at_pc with ⟨i, there, rfl⟩ | ⟨rfl, rfl, rfl⟩
      · obtain ⟨old, calls, rfl⟩ := L.call_back op
        obtain ⟨passed, called⟩ := L.arguments (S := S) renamed (L.call_slots inside there calls)
        rw [passed, called] at done
        rw [Replacement.lowerInst_id]
        exact ⟨_, .thrown inside there calls done, .unwound mem'⟩
      · exact (avoids rfl).elim
    | @branch d' t' _ _ here op there =>
      left
      obtain ⟨d, inside, rfl⟩ := L.of_mem_lowered here
      obtain ⟨t, inside', rfl⟩ := L.of_mem_lowered there
      -- The branch behind the call is not due: related configurations stand ahead of the call at the latest.
      have other : d.id ≠ L.site.block := by
        intro same
        have end_ := within (by rw [Replacement.lower_id, same])
        rw [L.length_here same, L.only inside same] at end_
        omega
      rw [L.term_other other, Terminal.mapOperands_op, Replacement.lower_id] at op
      obtain ⟨w, op, target⟩ := Terminator.mapOperands_eq_br op
      obtain rfl := L.rename_eq_block target
      rw [Replacement.lower_id, L.length_other other]
      exact ⟨_, .branch inside op inside', L.enter renamed inside' (L.edge_kept other) mem⟩
    | @normal d' t' c u _ _ mem' r here op there done =>
      left
      obtain ⟨d, inside, rfl⟩ := L.of_mem_lowered here
      obtain ⟨t, inside', rfl⟩ := L.of_mem_lowered there
      have other := L.term_back fun v same => by rw [op] at same; cases same
      obtain ⟨notOld, notNew⟩ := L.term_apart inside other
      rw [L.term_other other, Terminal.mapOperands_op, Replacement.lower_id] at op
      obtain ⟨old, x, y, op, rfl, target, _⟩ := Terminator.mapOperands_eq_invoke op
      obtain rfl := L.rename_eq_block target
      obtain ⟨passed, called⟩ := L.arguments (S := S) renamed (L.invoked_slots inside op)
      rw [passed, called] at done
      rw [Replacement.lower_id, L.length_other other, L.term_other other, Terminal.mapOperands_id]
      exact ⟨_, .normal inside op inside' done, L.enter (renamed.set notOld notNew r) inside' (L.edge_kept other) mem'⟩
    | @unwind d' t' c n _ _ mem' here op there done =>
      left
      obtain ⟨d, inside, rfl⟩ := L.of_mem_lowered here
      obtain ⟨t, inside', rfl⟩ := L.of_mem_lowered there
      have other := L.term_back fun v same => by rw [op] at same; cases same
      rw [L.term_other other, Terminal.mapOperands_op, Replacement.lower_id] at op
      obtain ⟨old, x, y, op, rfl, _, target⟩ := Terminator.mapOperands_eq_invoke op
      obtain rfl := L.rename_eq_block target
      obtain ⟨passed, called⟩ := L.arguments (S := S) renamed (L.invoked_slots inside op)
      rw [passed, called] at done
      rw [Replacement.lower_id, L.length_other other, L.term_other other, Terminal.mapOperands_id]
      exact ⟨_, .unwind inside op inside' done, L.enter renamed inside' (L.edge_kept other) mem'⟩
    | @jump d' t' k _ _ mem' r here chooses target there done =>
      left
      obtain ⟨d, inside, rfl⟩ := L.of_mem_lowered here
      obtain ⟨t, inside', rfl⟩ := L.of_mem_lowered there
      have other := L.term_back fun v same => by rw [same] at chooses; exact chooses
      obtain ⟨notOld, notNew⟩ := L.term_apart inside other
      rw [L.term_other other, Terminal.mapOperands_op] at chooses target done
      rw [Terminator.targets_mapOperands, List.getElem?_map, Replacement.lower_id] at target
      obtain ⟨v, named, goes⟩ := Option.map_eq_some_iff.mp target
      obtain rfl := L.rename_eq_block goes
      rw [L.terminator renamed (L.term_slots inside)] at done
      rw [Replacement.lower_id, L.length_other other, L.term_other other, Terminal.mapOperands_id]
      exact ⟨_, .jump inside ((Terminator.chooses_mapOperands _ _).mp chooses) named inside' done,
        L.enter (renamed.set notOld notNew r) inside' (L.edge_kept other) mem'⟩
    | @leave d' _ _ mem' r here chooses done =>
      left
      obtain ⟨d, inside, rfl⟩ := L.of_mem_lowered here
      have other := L.term_back fun v same => by rw [same] at chooses; exact chooses
      rw [L.term_other other, Terminal.mapOperands_op] at chooses done
      rw [L.terminator renamed (L.term_slots inside)] at done
      rw [Replacement.lower_id, L.length_other other, L.term_other other, Terminal.mapOperands_op,
        L.terminator renamed (L.term_slots inside)]
      exact ⟨_, .leave inside ((Terminator.chooses_mapOperands _ _).mp chooses) done, .left _ mem'⟩

theorem label_apart (L : Lowering) {e e' : Config Val Mem}
    {label : Option LocalId} (step : S.Step L.after e label e') : label ≠ some L.site.id := by
  intro same
  cases step with
  | @thrown d' pc j tail c _ _ _ here at_pc op done =>
    obtain ⟨d, inside, rfl⟩ := L.of_mem_lowered here
    rcases L.inst_back inside at_pc with ⟨i, there, rfl⟩ | ⟨rfl, rfl, rfl⟩
    · rw [Replacement.lowerInst_id] at same
      exact (L.inst_apart inside (List.mem_of_getElem? there)).1 (Option.some.inj same)
    · rw [Instruction.mapOperands_id, L.number] at same
      exact L.fresh (Option.some.inj same ▸ Function.mem_localIds_of_block L.member L.home.term_id_mem_ids)
  | @unwind d' t c n _ _ _ here op there done =>
    obtain ⟨d, inside, rfl⟩ := L.of_mem_lowered here
    have other := L.term_back fun v same => by rw [op] at same; cases same
    rw [L.term_other other, Terminal.mapOperands_id] at same
    exact (L.term_apart inside other).1 (Option.some.inj same)
  | _ => cases same

theorem label_fresh (L : Lowering) {c c' : Config Val Mem}
    {label : Option LocalId} (step : S.Step L.before c label c') : label ≠ some L.new.id := by
  intro same
  cases step with
  | thrown here at_pc op done =>
    exact (L.inst_apart here (List.mem_of_getElem? at_pc)).2 (Option.some.inj same)
  | unwind here op there done =>
    exact L.fresh (Option.some.inj same ▸ Function.mem_localIds_of_block here (Block.term_id_mem_ids _))
  | _ => cases same

theorem resume (L : Lowering) {c e e' : Config Val Mem}
    {label : Option LocalId} (midway : L.Midway S c e)
    (step : S.Step L.after e label e') :
    label = none ∧ ∃ c', S.Step L.before c none c' ∧ L.Related c' e' := by
  cases midway with
  | @intro env env' mem mem' r renamed done =>
    generalize form : Config.running L.site.block (L.home.insts.length + 1) (env'.set L.new.id r) mem' = e at step
    -- There is no instruction behind the call, and the terminator of its block is the branch.
    have beyond : ∀ {d : Block} {j : Instruction}, d ∈ L.before.blocks → L.site.block = d.id →
        (L.lower d).insts[L.home.insts.length + 1]? ≠ some j := by
      intro d j inside here at_pc
      obtain ⟨within, _⟩ := List.getElem?_eq_some_iff.mp at_pc
      rw [L.length_here here.symm, L.only inside here.symm] at within
      omega
    have branches : ∀ {d : Block}, L.site.block = d.id →
        (L.lower d).term.op = .br (.block L.normal) := by
      intro d here
      rw [Replacement.lower_term, if_pos here.symm]
    cases step with
    | branch here op there =>
      obtain ⟨d, inside, rfl⟩ := L.of_mem_lowered here
      obtain ⟨t, inside', rfl⟩ := L.of_mem_lowered there
      rw [Replacement.lower_id] at form op
      obtain ⟨place, _, rfl, rfl⟩ := Config.running.inj form
      rw [branches place] at op
      have target : t.id = L.normal := (Value.block.inj (Terminator.br.inj op)).symm
      have step : S.Step L.before (.running L.home.id L.home.insts.length env mem) none
          (S.enter (env.set L.home.term.id r) L.home.id t mem') :=
        .normal L.member (target ▸ L.op) inside' done
      refine ⟨rfl, _, L.at_home ▸ step, ?_⟩
      rw [Replacement.lower_id, ← place]
      exact L.resumed renamed inside' target r mem'
    | plain here at_pc | returned here at_pc | thrown here at_pc =>
      obtain ⟨d, inside, rfl⟩ := L.of_mem_lowered here
      rw [Replacement.lower_id] at form
      obtain ⟨place, rfl, _, _⟩ := Config.running.inj form
      exact (beyond inside place at_pc).elim
    | normal here op | unwind here op =>
      obtain ⟨d, inside, rfl⟩ := L.of_mem_lowered here
      rw [Replacement.lower_id] at form
      rw [branches (Config.running.inj form).1] at op
      cases op
    | jump here chooses | leave here chooses =>
      obtain ⟨d, inside, rfl⟩ := L.of_mem_lowered here
      rw [Replacement.lower_id] at form
      rw [branches (Config.running.inj form).1] at chooses
      exact chooses.elim

theorem resumes (L : Lowering) {c e : Config Val Mem}
    (midway : L.Midway S c e) : ∃ e', S.Step L.after e none e' := by
  obtain ⟨⟨t, there, target⟩, _⟩ := L.continuations
  cases midway with
  | intro renamed done => exact ⟨_, L.branch_taken there target _ _⟩

theorem unwinds (L : Lowering) {c e : Config Val Mem}
    (related : L.Related c e) :
    (∃ c', S.Step L.before c (some L.site.id) c') ↔ ∃ e', S.Step L.after e (some L.new.id) e' := by
  cases related with
  | left => exact ⟨(fun ⟨_, step⟩ => nomatch step), fun ⟨_, step⟩ => nomatch step⟩
  | unwound => exact ⟨(fun ⟨_, step⟩ => nomatch step), fun ⟨_, step⟩ => nomatch step⟩
  | @running at_block pc env env' mem renamed within =>
    obtain ⟨passed, called⟩ := L.given (S := S) renamed
    constructor
    · rintro ⟨c', step⟩
      generalize labelled : some L.site.id = label at step
      cases step with
      | thrown here at_pc op done =>
        exact ((L.inst_apart here (List.mem_of_getElem? at_pc)).1 (Option.some.inj labelled).symm).elim
      | @unwind d t c n _ _ mem' here op there done =>
        have place : d.id = L.site.block := by
          by_contra other
          exact (L.term_apart here other).1 (Option.some.inj labelled).symm
        obtain rfl := L.only here place
        rw [L.op, Terminator.invoke.injEq] at op
        obtain ⟨rfl, _⟩ := op
        have step : S.Step L.after (.running (L.lower L.home).id L.home.insts.length env' mem)
            (some (L.new.mapOperands L.rename).id) (.unwound mem') :=
          .thrown (L.mem_lowered here) L.call_at (by rw [Instruction.mapOperands_op, L.calls]; rfl)
            (by rw [passed, called]; exact done)
        rw [Replacement.lower_id] at step
        exact ⟨_, step⟩
      | _ => cases labelled
    · rintro ⟨e', step⟩
      generalize labelled : some L.new.id = label at step
      cases step with
      | @thrown d' _ j tail c _ _ mem' here at_pc op done =>
        obtain ⟨d, inside, rfl⟩ := L.of_mem_lowered here
        rcases L.inst_back inside at_pc with ⟨i, there, rfl⟩ | ⟨rfl, rfl, rfl⟩
        · rw [Replacement.lowerInst_id] at labelled
          exact ((L.inst_apart inside (List.mem_of_getElem? there)).2 (Option.some.inj labelled).symm).elim
        · rw [Instruction.mapOperands_op, L.calls, Operation.mapOperands, Operation.call.injEq] at op
          obtain ⟨_, rfl⟩ := op
          rw [passed, called] at done
          obtain ⟨_, t, there, target⟩ := L.continuations
          have step : S.Step L.before (.running L.home.id L.home.insts.length env mem) (some L.home.term.id)
              (S.enter env L.home.id t mem') :=
            .unwind inside (target ▸ L.op) there done
          rw [Replacement.lower_id, L.number]
          exact ⟨_, step⟩
      | @unwind d' t' c n _ _ mem' here op there done =>
        obtain ⟨d, inside, rfl⟩ := L.of_mem_lowered here
        have other := L.term_back fun v same => by rw [op] at same; cases same
        rw [L.term_other other, Terminal.mapOperands_id] at labelled
        exact ((L.term_apart inside other).2 (Option.some.inj labelled).symm).elim
      | _ => cases labelled

theorem called_absent (L : Lowering) (given : List Val) :
    L.before.called given L.site.id = none ∧ L.before.called given L.new.id = none := by
  have absent : ∀ id, (∀ p ∈ L.before.params, p.id ≠ id) → L.before.called given id = none := by
    intro id apart
    have missing : (L.before.params.zip given).find? (fun e => e.1.id == id) = none := by
      rw [List.find?_eq_none]
      rintro ⟨p, v⟩ listed
      simpa using apart p (List.of_mem_zip listed).1
    rw [Function.called, missing, Option.map_none]
  constructor
  · refine absent _ fun p listed same => ?_
    exact Function.param_not_in_block L.wellFormed.numbered listed L.member L.home.term_id_mem_ids (same.trans L.number)
  · refine absent _ fun p listed same => L.fresh ?_
    rw [← same, Function.localIds_eq]
    exact List.mem_append_left _ (List.mem_map.mpr ⟨p, listed, rfl⟩)

theorem starts (L : Lowering) (given : List Val) (mem : Mem) :
    (∀ c, L.before.starts given mem c → ∃ e, L.after.starts given mem e ∧ L.Related c e) ∧
      ∀ e, L.after.starts given mem e → ∃ c, L.before.starts given mem c ∧ L.Related c e := by
  obtain ⟨old, new⟩ := L.called_absent given
  have same : L.after.called given = L.before.called given := by
    funext id
    rw [Function.called, Function.called, L.params]
  have renamed : Renamed L.site.id L.new.id (L.before.called given) (L.after.called given) := by
    rw [same]
    exact ⟨fun _ _ _ => rfl, new.trans old.symm⟩
  have heads : L.after.blocks.head? = L.before.blocks.head?.map L.lower := by
    rw [L.blocks, List.head?_map]
  constructor
  · rintro _ ⟨b, first, rfl⟩
    refine ⟨_, ⟨L.lower b, by rw [heads, first, Option.map_some], rfl⟩, ?_⟩
    rw [Replacement.lower_id]
    exact .running renamed fun _ => Nat.zero_le _
  · rintro _ ⟨e, first, rfl⟩
    rw [heads] at first
    obtain ⟨b, there, rfl⟩ := Option.map_eq_some_iff.mp first
    refine ⟨_, ⟨b, there, rfl⟩, ?_⟩
    rw [Replacement.lower_id]
    exact .running renamed fun _ => Nat.zero_le _

/-- An execution that does not unwind at the invoke is one of the lowered function. -/
theorem runs_forward (L : Lowering) {c c' e : Config Val Mem} (related : L.Related c e)
    (runs : S.Runs L.before L.site.id c c') : ∃ e', S.Runs L.after L.new.id e e' ∧ L.Related c' e' := by
  induction runs with
  | refl => exact ⟨e, .refl, related⟩
  | tail _ last ih =>
    obtain ⟨e', before, there⟩ := ih
    obtain ⟨label, avoids, step⟩ := last
    rcases L.forward there step avoids with ⟨e'', step', after⟩ | ⟨rfl, mid, e'', first, _, second, after⟩
    · exact ⟨e'', before.tail ⟨label, L.label_fresh step, step'⟩, after⟩
    · exact ⟨e'', (before.tail ⟨none, nofun, first⟩).tail ⟨none, nofun, second⟩, after⟩

/-- An execution of the lowered function in which the call does not unwind is one of the function, up to
the branch that may be due behind the call. -/
theorem runs_backward (L : Lowering) {c e e' : Config Val Mem} (related : L.Related c e)
    (runs : S.Runs L.after L.new.id e e') :
    ∃ c', S.Runs L.before L.site.id c c' ∧ (L.Related c' e' ∨ L.Midway S c' e') := by
  induction runs with
  | refl => exact ⟨c, .refl, .inl related⟩
  | tail _ last ih =>
    obtain ⟨c', before, there⟩ := ih
    obtain ⟨label, avoids, step⟩ := last
    rcases there with there | midway
    · rcases L.backward there step avoids with ⟨c'', step', after⟩ | ⟨rfl, after⟩
      · exact ⟨c'', before.tail ⟨label, L.label_apart step, step'⟩, .inl after⟩
      · exact ⟨c', before, .inr after⟩
    · obtain ⟨rfl, c'', step', after⟩ := L.resume midway step
      exact ⟨c'', before.tail ⟨none, nofun, step'⟩, .inl after⟩

/-- The function before and after the lowering do the same, step for step, as long as the invoke does not
unwind. -/
structure Lockstep (L : Lowering) (S : Semantics Val Mem) : Prop where
  starts : ∀ (given : List Val) (mem : Mem) (c : Config Val Mem), L.before.starts given mem c →
    ∃ e, L.after.starts given mem e ∧ L.Related c e
  started : ∀ (given : List Val) (mem : Mem) (e : Config Val Mem), L.after.starts given mem e →
    ∃ c, L.before.starts given mem c ∧ L.Related c e
  /-- A step is matched by one step, and the invoke by the call and the branch behind it. -/
  forward : ∀ {c c' e label}, L.Related c e → S.Step L.before c label c' → label ≠ some L.site.id →
    (∃ e', S.Step L.after e label e' ∧ L.Related c' e') ∨
      (label = none ∧ ∃ mid e', S.Step L.after e none mid ∧ L.Midway S c mid ∧ S.Step L.after mid none e' ∧
        L.Related c' e')
  backward : ∀ {c e e' label}, L.Related c e → S.Step L.after e label e' → label ≠ some L.new.id →
    (∃ c', S.Step L.before c label c' ∧ L.Related c' e') ∨ (label = none ∧ L.Midway S c e')
  /-- Behind the call there is a step, and any step completes that of the invoke. -/
  resumes : ∀ {c e}, L.Midway S c e → ∃ e', S.Step L.after e none e'
  resume : ∀ {c e e' label}, L.Midway S c e → S.Step L.after e label e' →
    label = none ∧ ∃ c', S.Step L.before c none c' ∧ L.Related c' e'
  /-- What the lowered function cannot do as the function does is to unwind at this place, and nothing else. -/
  unwinds : ∀ {c e}, L.Related c e →
    ((∃ c', S.Step L.before c (some L.site.id) c') ↔ ∃ e', S.Step L.after e (some L.new.id) e')
  runs : ∀ {c c' e}, L.Related c e → S.Runs L.before L.site.id c c' →
    ∃ e', S.Runs L.after L.new.id e e' ∧ L.Related c' e'
  ran : ∀ {c e e'}, L.Related c e → S.Runs L.after L.new.id e e' →
    ∃ c', S.Runs L.before L.site.id c c' ∧ (L.Related c' e' ∨ L.Midway S c' e')

theorem lockstep (L : Lowering) (S : Semantics Val Mem) : L.Lockstep S where
  starts := fun given mem => (L.starts given mem).1
  started := fun given mem => (L.starts given mem).2
  forward := L.forward
  backward := L.backward
  resumes := L.resumes
  resume := L.resume
  unwinds := L.unwinds
  runs := L.runs_forward
  ran := L.runs_backward

end Lowering

/-- Whatever instructions and calls do: an invoke that is replaced by a call of the same callee, with the same
arguments and result type, leaves a function whose executions are those of the function in which the invoke
does not unwind. -/
theorem replaced_invoke_in_lockstep {f : Function} {site : CallSite} {call : Call Value} {type : Ty}
    (wellFormed : f.WellFormed) (listed : site ∈ f.callSites) (exceptional : site.isExceptional = true)
    (callee : call.callee = site.call.callee) (args : call.args.map Argument.bare = site.args)
    (agree : site.type.same type = true) (attached : List Attachment) (m : Module) :
    ∃ L : Lowering, L.before = f ∧ L.site = site ∧ L.new = f.replacementFor site call type attached ∧
      f.replaceCallSite m site call type attached = (L.after, none) ∧
      ∀ (Val Mem : Type) (S : Semantics Val Mem), L.Lockstep S := by
  obtain ⟨L, before, same, new, replaced⟩ :=
    Function.replaceCallSite_lowering wellFormed listed exceptional callee args agree attached m
  exact ⟨L, before, same, new, replaced, fun _ _ S => L.lockstep S⟩

/-- A function whose invoke has a result that a phi of the normal continuation takes, while a phi of the other
one takes a constant. -/
def invoking : Function where
  id := ⟨1⟩
  symbol := .named "invoking"
  result := .bytePointer
  params := []
  blocks := [
    { id := 0
      ident := .named "entry"
      insts := []
      term := ⟨1, .named "r", .bytePointer,
        .invoke { callee := .symbol ⟨2⟩ (.pointer (.func .bytePointer [] false) 0), args := [] } (.block 2) (.block 5), []⟩ },
    { id := 2
      ident := .named "done"
      insts := [⟨3, .named "p", .bytePointer, .phi [] [(.local 1 .bytePointer, .block 0)], []⟩]
      term := ⟨4, .number 0, .void, .ret (some (.local 3 .bytePointer)), []⟩ },
    { id := 5
      ident := .named "failed"
      insts := [⟨6, .named "q", .bytePointer, .phi [] [(.const 4 (.null .bytePointer), .block 0)], []⟩]
      term := ⟨7, .number 0, .void, .ret (some (.local 6 .bytePointer)), []⟩ }]

theorem invoking_operands : invoking.operands =
    ([.symbol ⟨2⟩ (.pointer (.func .bytePointer [] false) 0), .block 2, .block 5, .local 1 .bytePointer, .block 0,
      .local 3 .bytePointer, .const 4 (.null .bytePointer), .block 0, .local 6 .bytePointer] : List Value).map .code :=
  rfl

theorem invoking_results : invoking.results = [.local 1 .bytePointer, .local 3 .bytePointer, .local 6 .bytePointer] := rfl

theorem invoking_wellFormed : invoking.WellFormed where
  numbered := by decide
  directed := by simp [invoking, Terminator.targets]
  joined := by
    simp [invoking, Function.Joins, Function.Enters, Block.successors, Terminator.targets]
  owned := by
    have blocks : ∀ id ∈ [0, 2, 5], ∃ b ∈ invoking.blocks, b.id = id := by simp [invoking]
    have locals : ∀ id ∈ [1, 3, 6], .local id .bytePointer ∈ invoking.results := by simp [invoking_results]
    simp only [invoking_operands, List.forall_mem_map, List.forall_mem_cons]
    exact ⟨trivial, blocks 2 (by simp), blocks 5 (by simp), locals 1 (by simp), blocks 0 (by simp), locals 3 (by simp), trivial,
      blocks 0 (by simp), locals 6 (by simp), List.forall_mem_nil _⟩

def invokingSite : CallSite :=
  ⟨0, none, 1, .named "r", .bytePointer, { callee := .symbol ⟨2⟩ (.pointer (.func .bytePointer [] false) 0), args := [] }, [],
    some (.block 2, .block 5)⟩

theorem invoking_in_lockstep :
    ∃ L : Lowering, L.before = invoking ∧ L.site = invokingSite ∧
      L.new = invoking.replacementFor invokingSite invokingSite.call .bytePointer [] ∧
      invoking.replaceCallSite {} invokingSite invokingSite.call .bytePointer [] = (L.after, none) ∧
      ∀ (Val Mem : Type) (S : Semantics Val Mem), L.Lockstep S :=
  replaced_invoke_in_lockstep invoking_wellFormed List.mem_cons_self rfl rfl rfl (by decide +kernel) [] {}
end CallFusion.Ir
