import CallFusion.Proofs.Ir.Callees
import CallFusion.Proofs.Ir.Dominance
import Mathlib.Logic.Relation

/-!
Looking through casts. The way from a value leads from bitcast to bitcast, and has an end unless it runs in a circle: it
cannot pass more bitcasts than there are. In code that control reaches, definitions ahead of their uses rule circles out.
-/

namespace CallFusion.Ir

def Value.bare : Value → Value
  | .const mention c => .const mention c.stripCasts
  | v => v

namespace Function

open Relation

variable {f : Function} {v w x y : Value} {ids : List LocalId}

def uncast? (f : Function) (v : Value) : Option Value :=
  match v with
  | .const mention (.cast .bitcast c _) => some (.const mention c)
  | v => f.castSource? v

def Uncasts (f : Function) (v w : Value) : Prop := f.uncast? v = some w

/-- Looking through the casts of a value comes to an end, at a value that is no bitcast. -/
structure EndsAt (f : Function) (v x : Value) : Prop where
  reached : ReflTransGen f.Uncasts v x
  last : f.uncast? x = none

/-- Looking through the casts of a value comes to an end. -/
def Resolves (f : Function) (v : Value) : Prop := ∃ x, f.EndsAt v x

/-- Looking through the casts of a value runs in a circle. -/
def Circular (f : Function) (v : Value) : Prop := ∃ w, ReflTransGen f.Uncasts v w ∧ TransGen f.Uncasts w w

theorem uncasts_unique : Relator.RightUnique f.Uncasts := fun _ _ _ first second =>
  Option.some.inj (first.symm.trans second)

theorem uncasts_of_castSource? (step : f.castSource? v = some w) : f.Uncasts v w := by
  obtain ⟨_, _, rfl, _⟩ := castSource?_eq_some step
  exact step

theorem EndsAt.head (step : f.Uncasts v w) (ends : f.EndsAt w x) : f.EndsAt v x := ⟨.head step ends.reached, ends.last⟩

theorem eq_of_reached (last : f.uncast? x = none) (further : ReflTransGen f.Uncasts x y) : x = y := by
  rcases further.cases_head with same | ⟨_, step, _⟩
  · exact same
  · exact nomatch last.symm.trans step

theorem EndsAt.unique (ends : f.EndsAt v x) (also : f.EndsAt v y) : x = y := by
  rcases ReflTransGen.total_of_right_unique uncasts_unique ends.reached also.reached with further | further
  · exact eq_of_reached ends.last further
  · exact (eq_of_reached also.last further).symm

theorem endsAt_const (f : Function) (mention : Nat) (c : Constant) :
    f.EndsAt (.const mention c) (.const mention c.stripCasts) := by
  fun_induction Constant.stripCasts c with
  | case1 c type ih => exact ih.head rfl
  | case2 c other =>
    refine ⟨.refl, ?_⟩
    unfold uncast?
    split
    · next inner _ same =>
      obtain ⟨-, rfl⟩ := Value.const.inj same
      exact absurd rfl (other _ _)
    · rfl

theorem Chain.endsAt (chain : f.Chain v ids w) : f.EndsAt v w.bare := by
  induction chain with
  | @done v last =>
    cases v with
    | const mention c => exact endsAt_const f mention c
    | _ => exact ⟨.refl, last⟩
  | cast step _ ih => exact ih.head (uncasts_of_castSource? step)

theorem EndsAt.exists_chain (ends : f.EndsAt v x) : ∃ ids w, f.Chain v ids w := by
  obtain ⟨reached, last⟩ := ends
  induction reached using ReflTransGen.head_induction_on with
  | refl =>
    refine ⟨[], x, .done ?_⟩
    cases step : f.castSource? x with
    | none => rfl
    | some w => exact nomatch last.symm.trans (uncasts_of_castSource? step)
  | @head v w step _ ih =>
    obtain ⟨ids, y, chain⟩ := ih
    cases direct : f.castSource? v with
    | none => exact ⟨[], v, .done direct⟩
    | some u =>
      obtain rfl := uncasts_unique step (uncasts_of_castSource? direct)
      obtain ⟨id, type, rfl, _⟩ := castSource?_eq_some direct
      exact ⟨id :: ids, y, .cast direct chain⟩

/-- The search for the value behind casts finds it exactly if the way there has an end. -/
theorem stripCasts?_eq_some_iff : f.stripCasts? v = some x ↔ f.EndsAt v x := by
  have found : ∀ {y}, f.stripCasts? v = some y ↔ ∃ w, f.followCasts (f.instructions.length + 2) v = some w ∧ w.bare = y :=
    Option.map_eq_some_iff
  constructor
  · intro stripped
    obtain ⟨w, followed, rfl⟩ := found.mp stripped
    obtain ⟨ids, chain, _⟩ := followCasts_eq_some_iff.mp followed
    exact chain.endsAt
  · intro ends
    obtain ⟨ids, w, chain⟩ := ends.exists_chain
    have enough := Nat.lt_add_right 1 (Nat.lt_succ_of_le chain.length_le)
    exact found.mpr ⟨w, followCasts_eq_some_iff.mpr ⟨ids, chain, enough⟩, chain.endsAt.unique ends⟩

/-- The instructions that the way from a value to another passes. -/
inductive Path (f : Function) : Value → List LocalId → Value → Prop
  | here (v : Value) : f.Path v [] v
  | cast {id : LocalId} {type : Ty} {v w : Value} {ids : List LocalId} (step : f.castSource? (.local id type) = some v)
      (rest : f.Path v ids w) : f.Path (.local id type) (id :: ids) w

namespace Path

theorem listed (path : f.Path v ids w) : ids ⊆ f.instructions.map (·.id) := by
  induction path with
  | here => exact List.nil_subset _
  | cast step _ ih =>
    obtain ⟨_, _, form, i, carried, number, _⟩ := castSource?_eq_some step
    cases form
    exact List.cons_subset.mpr ⟨List.mem_map.mpr ⟨i, carried, number⟩, ih⟩

theorem passes (path : f.Path v ids w) {id : LocalId} (passed : id ∈ ids) {type : Ty} {x : Value}
    (step : f.castSource? (.local id type) = some x) : TransGen f.Uncasts v x := by
  induction path with
  | here => cases passed
  | @cast here _ v w ids first rest ih =>
    rcases List.mem_cons.mp passed with rfl | later
    · obtain rfl : v = x := Option.some.inj (first.symm.trans step)
      exact .single (uncasts_of_castSource? first)
    · exact .head (uncasts_of_castSource? first) (ih later)

theorem circular (path : f.Path v ids w) (again : ¬ ids.Nodup) : f.Circular v := by
  induction path with
  | here => exact absurd List.nodup_nil again
  | @cast id type v w ids step rest ih =>
    by_cases passed : id ∈ ids
    · exact ⟨v, .single (uncasts_of_castSource? step), rest.passes passed step⟩
    · obtain ⟨x, reached, round⟩ := ih fun distinct => again (List.nodup_cons.mpr ⟨passed, distinct⟩)
      exact ⟨x, reached.head (uncasts_of_castSource? step), round⟩

end Path

theorem exists_path {fuel : Nat} (endless : f.followCasts fuel v = none) : ∃ ids w, f.Path v ids w ∧ ids.length = fuel := by
  induction fuel generalizing v with
  | zero => exact ⟨[], v, .here v, rfl⟩
  | succ fuel ih =>
    rw [followCasts] at endless
    split at endless
    · next x step =>
      obtain ⟨id, type, rfl, _⟩ := castSource?_eq_some step
      obtain ⟨ids, w, path, length⟩ := ih endless
      exact ⟨id :: ids, w, .cast step path, congrArg Nat.succ length⟩
    · cases endless

theorem circular_of_stripCasts? (endless : f.stripCasts? v = none) : f.Circular v := by
  obtain ⟨ids, w, path, length⟩ := exists_path (Option.map_eq_none_iff.mp endless)
  -- The fuel outnumbers the instructions, so the way has passed one of them twice.
  refine path.circular fun distinct => ?_
  have few := (distinct.subperm path.listed).length_le
  rw [List.length_map] at few
  omega

theorem round_of_reached (reached : ReflTransGen f.Uncasts v w) (round : TransGen f.Uncasts v v) : TransGen f.Uncasts w w := by
  induction reached with
  | refl => exact round
  | @tail w x _ step ih =>
    obtain ⟨y, first, back⟩ := TransGen.head'_iff.mp ih
    obtain rfl := uncasts_unique step first
    exact TransGen.tail' back step

/-- Looking through casts has an end exactly if it does not run in a circle. -/
theorem resolves_iff : f.Resolves v ↔ ¬ f.Circular v := by
  constructor
  · rintro ⟨x, reached, last⟩ ⟨w, way, round⟩
    have ahead : ReflTransGen f.Uncasts w x := by
      rcases ReflTransGen.total_of_right_unique uncasts_unique way reached with onward | back
      · exact onward
      · exact eq_of_reached last back ▸ .refl
    obtain ⟨_, step, _⟩ := TransGen.head'_iff.mp (round_of_reached ahead round)
    exact nomatch last.symm.trans step
  · intro straight
    cases stripped : f.stripCasts? v with
    | some x => exact ⟨x, stripCasts?_eq_some_iff.mp stripped⟩
    | none => exact absurd (circular_of_stripCasts? stripped) straight

section Dominated

variable {debug : Bool} {trail : List (Block × Nat)} {b : Block} {id : LocalId}

theorem Resolves.head (step : f.castSource? v = some w) (resolves : f.Resolves w) : f.Resolves v := by
  obtain ⟨x, ends⟩ := resolves
  exact ⟨x, ends.head (uncasts_of_castSource? step)⟩

theorem resolves_of_last (last : f.castSource? v = none) : f.Resolves v := ⟨v.bare, (Chain.done last).endsAt⟩

theorem resolves_of_noInstruction (none : ∀ i ∈ f.instructions, i.id ≠ id) (type : Ty) : f.Resolves (.local id type) := by
  refine resolves_of_last (Option.eq_none_iff_forall_ne_some.mpr fun w step => ?_)
  obtain ⟨_, _, form, i, carried, number, _⟩ := castSource?_eq_some step
  cases form
  exact none i carried number

theorem resolves_param (numbered : f.localIds.Nodup) {p : Param} (given : p ∈ f.params) (type : Ty) :
    f.Resolves (.local p.id type) := by
  refine resolves_of_noInstruction (fun i carried same => ?_) type
  obtain ⟨b, member, inside⟩ := List.mem_flatMap.mp carried
  exact param_not_in_block numbered given member (Block.inst_id_mem_ids inside) same.symm

theorem resolves_term (numbered : f.localIds.Nodup) (member : b ∈ f.blocks) (type : Ty) :
    f.Resolves (.local b.term.id type) := by
  refine resolves_of_noInstruction (fun i carried same => ?_) type
  obtain ⟨c, within, inside⟩ := List.mem_flatMap.mp carried
  obtain rfl := block_unique numbered member within b.term_id_mem_ids (same ▸ Block.inst_id_mem_ids inside)
  have distinct := (List.nodup_cons.mp (block_ids_nodup numbered member)).2
  rw [List.nodup_append] at distinct
  exact distinct.2.2 i.id (List.mem_map.mpr ⟨i, inside, rfl⟩) b.term.id (List.mem_singleton.mpr rfl) same

theorem resolves_within (numbered : f.localIds.Nodup) (dominated : f.Dominated debug) (walk : f.Walk trail b)
    (ahead : ∀ id ∈ trail.flatMap (fun passed => passed.1.leaving passed.2), ∀ type, f.Resolves (.local id type)) {n : Nat}
    (known : v.KnownAmong (f.known trail b n)) : f.Resolves v := by
  -- By the place in the block: what an instruction casts is known ahead of that instruction.
  induction n using Nat.strongRecOn generalizing v with
  | ind n ih =>
    cases step : f.castSource? v with
    | none => exact resolves_of_last step
    | some w =>
      obtain ⟨id, type, rfl, i, carried, rfl, target, op⟩ := castSource?_eq_some step
      rcases List.mem_append.mp (known i.id rfl) with param | inside
      · obtain ⟨p, given, same⟩ := List.mem_map.mp param
        exact same ▸ resolves_param numbered given type
      rcases List.mem_append.mp inside with here | passed
      · obtain ⟨j, early, same⟩ := List.mem_map.mp here
        obtain ⟨m, short, at_m⟩ := List.mem_iff_getElem.mp early
        have before : m < n := Nat.lt_of_lt_of_le short (List.length_take_le n b.insts)
        have listed : b.insts[m]? = some j := by
          rw [← at_m, List.getElem_take, List.getElem?_eq_getElem]
        obtain rfl : i = j := Option.some.inj ((instruction?_of_mem numbered carried).symm.trans
          (same ▸ instruction?_of_mem numbered (List.mem_flatMap.mpr ⟨b, walk.member, List.mem_of_getElem? listed⟩)))
        refine (ih m before ?_).head step
        refine dominated.insts walk listed (by rw [op]; rfl) (.code w) ?_ (fun never => nomatch never)
        rw [op]
        exact List.mem_singleton.mpr rfl
      · exact ahead i.id passed type

/-- What is defined ahead of a place that control reaches is no circle of casts. -/
theorem resolves_of_known (numbered : f.localIds.Nodup) (dominated : f.Dominated debug) (walk : f.Walk trail b) {n : Nat}
    (known : v.KnownAmong (f.known trail b n)) : f.Resolves v := by
  induction walk generalizing v n with
  | entry first => exact resolves_within numbered dominated (.entry first) (fun _ none => nomatch none) known
  | @step trail p c k walk edge member ih =>
    refine resolves_within numbered dominated (.step walk edge member) (fun id passed type => ?_) known
    have defined : id ∈ f.known trail p p.insts.length ∨ id = p.term.id := by
      rw [Function.known, List.take_length]
      rcases List.mem_append.mp passed with left | earlier
      · rcases List.mem_append.mp left with inst | term
        · exact .inl (List.mem_append_right _ (List.mem_append_left _ inst))
        · split at term
          · exact .inr (List.mem_singleton.mp term)
          · cases term
      · exact .inl (List.mem_append_right _ (List.mem_append_right _ earlier))
    rcases defined with within | rfl
    · exact ih fun _ held => Option.some.inj held ▸ within
    · exact resolves_term numbered walk.member type

/-- Where control comes, definitions ahead of their uses rule out circles of casts in what a call is given. -/
theorem resolves_of_dominated (numbered : f.localIds.Nodup) (dominated : f.Dominated debug) (walk : f.Walk trail b)
    {site : CallSite} (found : site ∈ b.callSites) {o : Operand Value} (used : o ∈ (Operation.call "" site.call).operands)
    (code : o.debug = false) : f.Resolves o.value := by
  have plain : o.debug = true → debug = true := fun set => nomatch code.symm.trans set
  rcases CallSite.cases_of_mem found with ⟨i, carried, _, _, op, _⟩ | ⟨_, _, op, _⟩
  · obtain ⟨n, at_n⟩ := List.mem_iff_getElem?.mp carried
    exact resolves_of_known numbered dominated walk
      (dominated.insts walk at_n (by rw [op]; rfl) o (by rw [op]; exact used) plain)
  · refine resolves_of_known numbered dominated walk (dominated.terms walk o ?_ plain)
    rw [op]
    simp only [Operation.operands, Terminator.operands, List.mem_cons, List.mem_append] at used ⊢
    tauto

end Dominated

end Function
end CallFusion.Ir
