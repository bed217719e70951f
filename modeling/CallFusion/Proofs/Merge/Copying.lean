import CallFusion.Merge.Marshalling
import CallFusion.Proofs.Ir.Sites

/-!
Replacing one marshalling call by a copy. The buffers become byte pointers, by casts right ahead of the
call where that takes instructions, and then the copy takes the call's place. A call that its function
still holds is always replaced, and the function stays well formed.
-/

namespace CallFusion

open Ir

theorem Ir.Ty.not_isPointer_of_isVoid {t : Ty} (void : t.isVoid = true) : t.isPointer = false := by
  unfold Ty.isVoid at void
  unfold Ty.isPointer
  split at void
  · next found => rw [found]
  · cases void

theorem Ir.Ty.canonical_of_isVoid {t : Ty} (void : t.isVoid = true) : t.canonical = .void := by
  cases t with
  | synonym name body =>
    have inner : body.isVoid = true := void
    have notPointer : body.isPointer = false := not_isPointer_of_isVoid inner
    have notStruct : body.isStruct = false := by
      cases body with
      | struct => cases inner
      | _ => rfl
    simp only [Ty.canonical, notPointer, notStruct, Bool.false_eq_true, if_false]
    exact canonical_of_isVoid inner
  | void => rfl
  | _ => cases void

theorem Ir.Ty.same_void {t : Ty} (void : t.isVoid = true) : t.same .void = true := by
  simp [Ty.same, Ty.canonical_of_isVoid void, Ty.canonical]

/-- How a value is made a byte pointer: it is one, or a constant is cast, or an instruction casts it. -/
inductive Pointed (id : LocalId) (v : Value) : Value × List Instruction → Prop
  | plain : Pointed id v (v, [])
  | constant (mention later : Nat) (c : Constant) (held : v = .const mention c) :
      Pointed id v (.const later (.cast .bitcast c .bytePointer), [])
  | instruction (cast : Instruction) (number : cast.id = id) (op : cast.op = .cast .bitcast v .bytePointer) :
      Pointed id v (cast.value, [cast])

theorem toBytePointer_pointed (f : Function) (id : LocalId) (mention : Nat) (name : String) (v : Value) :
    Pointed id v (toBytePointer f id mention name v) := by
  unfold toBytePointer
  split
  · exact .plain
  · split
    · exact .constant _ _ _ rfl
    · exact .instruction _ rfl rfl

namespace Pointed

variable {f : Function} {id : LocalId} {v : Value} {made : Value × List Instruction}

theorem number (pointed : Pointed id v made) : ∀ i ∈ made.2, i.id = id := by
  cases pointed with
  | plain => exact fun i listed => nomatch listed
  | constant => exact fun i listed => nomatch listed
  | instruction cast number op =>
    intro i listed
    rw [List.mem_singleton.mp listed, number]

theorem op (pointed : Pointed id v made) : ∀ i ∈ made.2, i.op = .cast .bitcast v .bytePointer := by
  cases pointed with
  | plain => exact fun i listed => nomatch listed
  | constant => exact fun i listed => nomatch listed
  | instruction cast number op =>
    intro i listed
    rw [List.mem_singleton.mp listed, op]

theorem cases_value (pointed : Pointed id v made) :
    made.1 = v ∨ (∃ mention later c, v = .const mention c ∧ made.1 = .const later (.cast .bitcast c .bytePointer)) ∨
      ∃ i ∈ made.2, i.id = id ∧ made.1 = i.value := by
  cases pointed with
  | plain => exact .inl rfl
  | constant mention later c held => exact .inr (.inl ⟨mention, later, c, held, rfl⟩)
  | instruction cast number op => exact .inr (.inr ⟨cast, List.mem_singleton.mpr rfl, number, rfl⟩)

theorem ids_nodup (pointed : Pointed id v made) : (made.2.map (·.id)).Nodup := by
  cases pointed <;> simp

theorem value_or_cast (pointed : Pointed id v made) : made.1 = v ∨ ∀ x, made.1.local? = some x → x = id := by
  rcases pointed.cases_value with same | ⟨_, _, _, _, same⟩ | ⟨i, _, number, same⟩
  · exact .inl same
  · refine .inr fun x held => ?_
    rw [same] at held
    cases held
  · refine .inr fun x held => ?_
    rw [same] at held
    exact (Option.some.inj held).symm.trans number

theorem names (pointed : Pointed id v made) {s : SymbolId} (named : made.1.Names s) : v.Names s := by
  rcases pointed.cases_value with same | ⟨_, _, c, rfl, same⟩ | ⟨i, _, _, same⟩
  · exact same ▸ named
  · rw [same] at named
    change Constant.Names (.cast .bitcast c .bytePointer) s at named
    rw [← Constant.mentions_iff] at named
    have inner : c.mentions s = true := by
      rcases Constant.anywhere_step.mp named with here | ⟨child, listed, deeper⟩
      · cases here
      · exact List.mem_singleton.mp listed ▸ deeper
    exact (Constant.mentions_iff c s).mp inner
  · rw [same] at named
    exact named.elim

end Pointed

theorem insertCasts_eq {f : Function} (coherent : f.Coherent) {b : Block} (member : b ∈ f.blocks) {site : CallSite}
    (held : site.HeldBy b) (casts : List Instruction) (m : Module) :
    ∃ k, MarshallingPlan.insertCasts m f site casts = .ok (f.updateBlock b.id (·.insertAt k casts)) ∧
      match site.successors with
      | none => ∃ earlier i later, b.insts = earlier ++ i :: later ∧ i.id = site.id ∧ k = earlier.length ∧
          (∀ j ∈ earlier, j.id ≠ site.id) ∧ ∀ j ∈ later, j.id ≠ site.id
      | some _ => k = b.insts.length := by
  obtain ⟨here, stands⟩ := held
  have nothing : casts.isEmpty = true → ∀ k, f.updateBlock b.id (·.insertAt k casts) = f := by
    intro none k
    rw [List.isEmpty_iff.mp none]
    simp [Function.updateBlock, Block.insertAt]
  cases successors : site.successors with
  | none =>
    rw [successors] at stands
    obtain ⟨i, carried, same⟩ := stands
    obtain ⟨earlier, later, insts, ahead, behind⟩ := b.exists_split (Function.block_ids_nodup coherent.numbered member) carried
    have found : (f.block? site.block).bind (·.indexOf? site.id) = some earlier.length := by
      rw [← here, Function.block?_of_mem coherent.numbered member, ← same]
      exact Block.indexOf?_split insts ahead
    refine ⟨earlier.length, ?_, earlier, i, later, insts, same, rfl, same ▸ ahead, same ▸ behind⟩
    unfold MarshallingPlan.insertCasts
    split
    · next none => rw [nothing none]
    · rw [if_neg (by simp [CallSite.isExceptional, successors]), found, ← here]
  | some pair =>
    refine ⟨b.insts.length, ?_, rfl⟩
    unfold MarshallingPlan.insertCasts
    split
    · next none => rw [nothing none]
    · rw [if_pos (by simp [CallSite.isExceptional, successors]), ← here]
      refine congrArg Except.ok (Function.updateBlock_congr fun c present equal => ?_)
      rw [Function.block_eq_of_id coherent.numbered present member equal]
      simp [Block.insertAt]

theorem insertCasts_inserted {f : Function} (coherent : f.Coherent) {b : Block} (member : b ∈ f.blocks) {site : CallSite}
    (held : site.HeldBy b) {casts : List Instruction} (own : (casts.map (·.id)).Nodup)
    (fresh : ∀ i ∈ casts, i.id ∉ f.localIds) (plain : ∀ i ∈ casts, i.op.Plain) (m : Module) :
    ∃ g, MarshallingPlan.insertCasts m f site casts = .ok g ∧ f.Inserted casts g := by
  obtain ⟨k, done, _⟩ := insertCasts_eq coherent member held casts m
  exact ⟨_, done, Function.insertAt_inserted coherent member own fresh plain k⟩

theorem not_names_lengthConstant (size : UInt64) (id : SymbolId) : ¬ (lengthConstant size).Names id := by
  rw [← Constant.mentions_iff]
  exact Bool.noConfusion

theorem not_names_truth (b : Bool) (id : SymbolId) : ¬ (Value.truth b).Names id := by
  rw [← Value.mentions_iff]
  exact Bool.noConfusion

def copyCall (copy : Function) (dest source : Value) (mention : Nat) (size : UInt64) : Call Value :=
  { callee := copy.value
    args := [.value [] dest, .value [] source, .value [] (.const mention (lengthConstant size)), .value [] (.truth false)] }

/-- A function in which a copy has taken the place of a call site. -/
structure Copied (f : Function) (site : CallSite) (copy : Function) (dest source : Value) (g : Function) : Prop where
  coherent : g.Coherent
  wellFormed : f.WellFormed → f.Owns dest → f.Owns source → g.WellFormed
  frame : g = { f with blocks := g.blocks, dropped := g.dropped }
  names : ∀ id, g.Names id → f.Names id ∨ id = copy.id ∨ dest.Names id ∨ source.Names id
  written : ∀ node, g.WritesOut node → f.WritesOut node
  owns : ∀ v, f.Owns v → v.local? ≠ some site.id → g.Owns v
  code : ∀ o ∈ g.operands, o.debug = false →
    o ∈ f.operands ∨ o.value = dest ∨ o.value = source ∨ ∀ id, o.value.local? = some id → id ∉ f.seen
  insts : ∀ b ∈ f.blocks, ∀ i ∈ b.insts, i.id ≠ site.id →
    ∃ c ∈ g.blocks, c.id = b.id ∧ ∃ j ∈ c.insts, j.id = i.id ∧ ∀ target, i.Calls target → j.Calls target
  terms : ∀ b ∈ f.blocks, ∃ c ∈ g.blocks, c.id = b.id ∧
    ((c.term.op.hasResult = b.term.op.hasResult ∧ c.term.id = b.term.id ∧ c.term.op.targets = b.term.op.targets) ∨
      b.id = site.block ∧ ∃ normal unwind, site.successors = some (normal, unwind) ∧ c.term.op = .br normal)
  placed : ∃ c ∈ g.blocks, c.id = site.block ∧ ∃ i ∈ c.insts, i.id ∉ f.seen ∧ i.Calls copy
  ids : ∀ x ∈ g.localIds, x ∈ f.localIds ∨ x ∉ f.seen
  removed : site.StandsIn f → site.id ∉ g.localIds ∧ site.id ∈ g.seen
  carries : (∀ t, f.castSource? (.local site.id t) = none) → f.Carries [site.id] copy.id g

theorem Pointed.owned {f g : Function} {id : LocalId} {v : Value} {made : Value × List Instruction}
    (pointed : Pointed id v made) {casts : List Instruction} (inserted : f.Inserted casts g)
    (listed : ∀ i ∈ made.2, i ∈ casts) (owned : f.Owns v) : g.Owns made.1 := by
  rcases pointed.cases_value with same | ⟨_, _, _, _, same⟩ | ⟨i, member, _, same⟩
  · rw [same]
    exact inserted.owns owned
  · rw [same]
    trivial
  · rw [same]
    exact inserted.added i (listed i member) (by rw [pointed.op i member]; rfl)

section

variable {f : Function} {site : CallSite} {copy : Function} {dest source : Value}

theorem casts_numbered {d s : Value × List Instruction} (first : Pointed f.freshId dest d)
    (second : Pointed (f.freshId + 1) source s) :
    ((d.2 ++ s.2).map (·.id)).Nodup ∧ ∀ i ∈ d.2 ++ s.2, i.id ∉ f.seen := by
  constructor
  · rw [List.map_append, List.nodup_append]
    refine ⟨first.ids_nodup, second.ids_nodup, ?_⟩
    intro x left y right same
    obtain ⟨i, listed, rfl⟩ := List.mem_map.mp left
    obtain ⟨j, other, rfl⟩ := List.mem_map.mp right
    rw [first.number i listed, second.number j other] at same
    exact Nat.succ_ne_self _ same.symm
  · intro i listed
    rcases List.mem_append.mp listed with listed | listed
    · rw [first.number i listed]
      exact f.freshId_not_mem_seen 0
    · rw [second.number i listed]
      exact f.freshId_not_mem_seen 1

theorem mem_copyCall_operands {mention : Nat} {size : UInt64} {o : Operand Value}
    (present : o ∈ (Operation.call "" (copyCall copy dest source mention size)).operands) :
    o.debug = false ∧ (o.value = copy.value ∨ o.value = dest ∨ o.value = source ∨
      o.value = .const mention (lengthConstant size) ∨ o.value = .truth false) := by
  simp only [copyCall, Operation.operands, Call.argOperands, Call.bundleOperands, List.flatMap_cons, List.flatMap_nil,
    Argument.operands, List.singleton_append, List.append_nil, List.mem_cons, List.not_mem_nil, or_false] at present
  rcases present with rfl | rfl | rfl | rfl | rfl
  · exact ⟨rfl, .inl rfl⟩
  · exact ⟨rfl, .inr (.inl rfl)⟩
  · exact ⟨rfl, .inr (.inr (.inl rfl))⟩
  · exact ⟨rfl, .inr (.inr (.inr (.inl rfl)))⟩
  · exact ⟨rfl, .inr (.inr (.inr (.inr rfl)))⟩

section

variable {d s : Value × List Instruction} {mention : Nat} {size : UInt64}

theorem mem_casts_op {a b : LocalId} (first : Pointed a dest d) (second : Pointed b source s) :
    ∀ i ∈ d.2 ++ s.2, i.op = .cast .bitcast dest .bytePointer ∨ i.op = .cast .bitcast source .bytePointer :=
  fun i listed => (List.mem_append.mp listed).imp (first.op i) (second.op i)

theorem casts_plain {a b : LocalId} (first : Pointed a dest d) (second : Pointed b source s) :
    ∀ i ∈ d.2 ++ s.2, i.op.Plain := by
  intro i listed flags incoming phi
  rcases mem_casts_op first second i listed with op | op <;> rw [op] at phi <;> cases phi

theorem mem_casts_operands {a b : LocalId} (first : Pointed a dest d) (second : Pointed b source s) {i : Instruction}
    (listed : i ∈ d.2 ++ s.2) {o : Operand Value} (present : o ∈ i.op.operands) : o.value = dest ∨ o.value = source := by
  rcases mem_casts_op first second i listed with op | op
  · rw [op] at present
    exact .inl (List.mem_singleton.mp present ▸ rfl)
  · rw [op] at present
    exact .inr (List.mem_singleton.mp present ▸ rfl)

variable (first : Pointed f.freshId dest d) (second : Pointed (f.freshId + 1) source s)

include first second

theorem freshId_le_casts : ∀ i ∈ d.2 ++ s.2, f.freshId ≤ i.id := by
  intro i listed
  rcases List.mem_append.mp listed with listed | listed
  · exact Nat.le_of_eq (first.number i listed).symm
  · exact Nat.le_trans (Nat.le_succ _) (Nat.le_of_eq (second.number i listed).symm)

theorem copyCall_code {o : Operand Value}
    (present : o ∈ (Operation.call "" (copyCall copy d.1 s.1 mention size)).operands) :
    o.value = dest ∨ o.value = source ∨ ∀ id, o.value.local? = some id → id ∉ f.seen := by
  rcases (mem_copyCall_operands present).2 with same | same | same | same | same
  · rw [same]
    exact .inr (.inr nofun)
  · rcases first.value_or_cast with plain | cast
    · exact .inl (same.trans plain)
    · exact .inr (.inr fun id held => cast id (same ▸ held) ▸ f.freshId_not_mem_seen 0)
  · rcases second.value_or_cast with plain | cast
    · exact .inr (.inl (same.trans plain))
    · exact .inr (.inr fun id held => cast id (same ▸ held) ▸ f.freshId_not_mem_seen 1)
  · rw [same]
    exact .inr (.inr nofun)
  · rw [same]
    exact .inr (.inr nofun)

theorem copyCall_apart {id : LocalId} (known : id ∈ f.seen) (notDest : dest.local? ≠ some id)
    (notSource : source.local? ≠ some id) :
    ∀ o ∈ (Operation.call "" (copyCall copy d.1 s.1 mention size)).operands, o.value.local? ≠ some id := by
  intro o present
  rcases copyCall_code first second present with same | same | new
  · exact same ▸ notDest
  · exact same ▸ notSource
  · exact fun held => new id held known

theorem copyCall_names {o : Operand Value} (present : o ∈ (Operation.call "" (copyCall copy d.1 s.1 mention size)).operands)
    {id : SymbolId} (named : o.value.Names id) : id = copy.id ∨ dest.Names id ∨ source.Names id := by
  rcases (mem_copyCall_operands present).2 with same | same | same | same | same
  · exact .inl (Function.value_names (same ▸ named))
  · exact .inr (.inl (first.names (same ▸ named)))
  · exact .inr (.inr (second.names (same ▸ named)))
  · exact (not_names_lengthConstant size id (same ▸ named :)).elim
  · exact (not_names_truth false id (same ▸ named)).elim

theorem copyCall_owned {h : Function} (inserted : f.Inserted (d.2 ++ s.2) h) (destOwned : f.Owns dest)
    (sourceOwned : f.Owns source) {o : Operand Value}
    (present : o ∈ (Operation.call "" (copyCall copy d.1 s.1 mention size)).operands) : h.Owns o.value := by
  rcases (mem_copyCall_operands present).2 with same | same | same | same | same
  · rw [same]
    trivial
  · rw [same]
    exact first.owned inserted (fun i listed => List.mem_append_left _ listed) destOwned
  · rw [same]
    exact second.owned inserted (fun i listed => List.mem_append_right _ listed) sourceOwned
  · rw [same]
    trivial
  · rw [same]
    trivial

theorem casts_carry (numbered : f.localIds.Nodup) {h : Function} (inserted : f.Inserted (d.2 ++ s.2) h) (id : SymbolId) :
    f.Carries [] id h := by
  refine inserted.carries numbered (freshId_le_casts first second) (fun i listed tail c call => ?_) id
  rcases mem_casts_op first second i listed with op | op <;> rw [op] at call <;> cases call

theorem castSource?_casts (numbered : f.localIds.Nodup) {h : Function} (inserted : f.Inserted (d.2 ++ s.2) h)
    {id : LocalId} (known : id ∈ f.seen) (type : Ty) : h.castSource? (.local id type) = f.castSource? (.local id type) := by
  refine inserted.castSource? numbered (fun added => ?_) type
  obtain ⟨i, listed, number⟩ := List.mem_map.mp added
  exact (casts_numbered first second).2 i listed (number ▸ known)

end

/-- What comes out when a copy takes the place of a call behind its casts. Each fact goes back to one about the casts
and one about the exchange of the call. -/
theorem copied_of_placed (coherent : f.Coherent) {d s : Value × List Instruction} (first : Pointed f.freshId dest d)
    (second : Pointed (f.freshId + 1) source s) {h g : Function} (inserted : f.Inserted (d.2 ++ s.2) h)
    {new : Instruction} (placed : h.Placed site new g)
    {mention : Nat} {size : UInt64} (op : new.op = .call "" (copyCall copy d.1 s.1 mention size))
    (unseen : new.id ∉ h.seen) {gone : List (LocalId × Ident)} (noted : site.StandsIn h → site.id ∈ gone.map (·.1))
    (known : site.id ∈ f.seen) {b : Block} (within : b ∈ h.blocks) (held : site.HeldBy b)
    (apart : ∀ v, h.Holds v → v.local? ≠ some site.id → v.local? ≠ some new.id) :
    Copied f site copy dest source ((g.mapOperands (site.rename .void new.value)).note gone) := by
  have passed : ∀ o ∈ new.op.operands, o ∈ (Operation.call "" (copyCall copy d.1 s.1 mention size)).operands :=
    fun o present => op ▸ present
  have fresh : new.id ∉ f.seen := fun present => unseen (inserted.seen present)
  have calls : new.Calls copy := ⟨_, _, op, rfl⟩
  constructor
  case coherent =>
    exact Function.note_coherent (Function.mapOperands_coherent (site.rename_block .void new.value) placed.coherent) gone
  case wellFormed =>
    intro wellFormed destOwned sourceOwned
    have between : h.WellFormed := inserted.wellFormed wellFormed fun i listed o present =>
      (mem_casts_operands first second listed present).elim (fun same => same ▸ destOwned) fun same => same ▸ sourceOwned
    have owned : ∀ o ∈ new.op.operands, h.Owns o.value := fun o present =>
      copyCall_owned first second inserted destOwned sourceOwned (passed o present)
    have renamed := placed.wellFormed between owned (by rw [op]; rfl) .void
    exact Function.note_wellFormed renamed gone
  case frame =>
    rw [placed.frame, inserted.frame]
    rfl
  case names =>
    intro id named
    rcases placed.names .void named with before | ⟨o, present, named⟩
    · rcases inserted.names before with old | ⟨i, listed, o, present, named⟩
      · exact .inl old
      · rcases mem_casts_operands first second listed present with same | same
        · exact .inr (.inr (.inl (same ▸ named)))
        · exact .inr (.inr (.inr (same ▸ named)))
    · exact .inr (copyCall_names first second (passed o present) named)
  case written =>
    intro node written
    rcases placed.writesOut .void written with before | passed
    · rcases inserted.writesOut before with old | ⟨i, listed, passed⟩
      · exact old
      · rcases mem_casts_op first second i listed with cast | cast <;> rw [cast] at passed <;> cases passed
    · rw [op] at passed
      simp [Operation.callArguments, copyCall] at passed
  case owns =>
    intro v owned other
    exact Function.owns_mapOperands.mpr (placed.owns (inserted.owns owned) other)
  case code =>
    intro o present code
    rw [Function.note_operands] at present
    rcases placed.code_rename .void present code with before | own | result
    · rcases inserted.operands o before with kept | ⟨i, listed, held⟩
      · exact .inl kept
      · rcases mem_casts_operands first second listed held with same | same
        · exact .inr (.inl same)
        · exact .inr (.inr (.inl same))
    · exact .inr (copyCall_code first second (passed o own))
    · exact .inr (.inr (.inr fun id held => Option.some.inj (result.symm.trans held) ▸ fresh))
  case insts =>
    intro b member i carried other
    obtain ⟨c, within, here, _, insts⟩ := inserted.blocks b member
    obtain ⟨e, present, same, j, listed, number, kept⟩ := placed.insts c within i (insts i carried) other
    refine ⟨_, List.mem_map.mpr ⟨e, present, rfl⟩, same.trans here, _, List.mem_map.mpr ⟨j, listed, rfl⟩, number, ?_⟩
    intro target calls
    rw [kept calls.plain]
    exact calls.rename site .void new.value
  case terms =>
    intro b member
    obtain ⟨c, within, here, term, _⟩ := inserted.blocks b member
    obtain ⟨e, present, same, led⟩ := placed.terms_rename inserted.coherent .void c within
    exact ⟨e, present, same.trans here, here ▸ term ▸ led⟩
  case placed =>
    obtain ⟨c, present, here, listed⟩ := placed.mem_rename .void
    exact ⟨c, present, here, _, listed, fresh, calls.rename site .void new.value⟩
  case ids =>
    intro x present
    rw [Function.note_localIds, Function.localIds_mapOperands] at present
    rcases placed.ids x present with before | new
    · rcases inserted.ids x before with old | cast
      · exact .inl old
      · obtain ⟨i, listed, rfl⟩ := List.mem_map.mp cast
        exact .inr ((casts_numbered first second).2 i listed)
    · exact .inr fun present => new (inserted.seen present)
  case removed =>
    intro stands
    have still := inserted.standsIn stands
    constructor
    · rw [Function.note_localIds, Function.localIds_mapOperands]
      exact placed.removed still
    · apply List.mem_append_right
      rw [Function.note, List.map_append]
      exact List.mem_append_right _ (noted still)
  case carries =>
    intro uncast
    have still : ∀ t, h.castSource? (.local site.id t) = none := fun t =>
      (castSource?_casts first second coherent.numbered inserted known t).trans (uncast t)
    have replaced := placed.carries inserted.coherent within held calls unseen still apart .void
    have both := (casts_carry first second coherent.numbered inserted copy.id).trans replaced fun _ _ => List.not_mem_nil
    exact both.congr rfl rfl

theorem casts_inserted (coherent : f.Coherent) {b : Block} (member : b ∈ f.blocks) (held : site.HeldBy b)
    (known : site.id ∈ f.seen)
    (free : site.type.isVoid = true ∨
      f.UnusedInCode site.id ∧ dest.local? ≠ some site.id ∧ source.local? ≠ some site.id)
    {d s : Value × List Instruction} (first : Pointed f.freshId dest d) (second : Pointed (f.freshId + 1) source s)
    (copy : Function) (mention : Nat) (size : UInt64) (m : Module) :
    ∃ h, MarshallingPlan.insertCasts m f site (d.2 ++ s.2) = .ok h ∧ f.Inserted (d.2 ++ s.2) h ∧
      h.Accepts site (copyCall copy d.1 s.1 mention size) .void := by
  obtain ⟨own, fresh⟩ := casts_numbered first second
  obtain ⟨h, done, inserted⟩ := insertCasts_inserted coherent member held own
    (fun i listed present => fresh i listed (Function.mem_seen_of_mem_localIds present)) (casts_plain first second) m
  refine ⟨h, done, inserted, free.imp Ty.same_void fun ⟨code, notDest, notSource⟩ => ⟨fun o present debug => ?_,
    fun o present _ => ?_⟩⟩
  · rcases inserted.operands o present with kept | ⟨i, listed, slot⟩
    · exact code o kept debug
    · rcases mem_casts_operands first second listed slot with same | same
      · exact same ▸ notDest
      · exact same ▸ notSource
  · exact copyCall_apart first second known notDest notSource o present

theorem replaceByCopy_eq {copy h g : Function} {m : Module} {size : UInt64} {tag : String} {d s : Value × List Instruction}
    (first : toBytePointer f f.freshId f.freshMention (tag ++ ".dst") dest = d)
    (second : toBytePointer f (f.freshId + 1) (f.freshMention + 1) (tag ++ ".src") source = s)
    (inserted : MarshallingPlan.insertCasts m f site (d.2 ++ s.2) = .ok h)
    (replaced : h.replaceCallSite m site (copyCall copy d.1 s.1 (f.freshMention + 2) size) .void [] = (g, none)) :
    MarshallingPlan.replaceByCopy m f copy site dest source size tag = (g, none) := by
  unfold MarshallingPlan.replaceByCopy
  dsimp only
  rw [first, second, inserted]
  simp only [copyCall] at replaced ⊢
  simp only [replaced]

/-- A call that its function still holds is replaced by a copy, if it has no result or code does not use it. -/
theorem replaceByCopy_copied (coherent : f.Coherent) {b : Block} (member : b ∈ f.blocks) (held : site.HeldBy b)
    (known : site.id ∈ f.seen)
    (free : site.type.isVoid = true ∨
      f.UnusedInCode site.id ∧ dest.local? ≠ some site.id ∧ source.local? ≠ some site.id)
    (copy : Function) (m : Module) (size : UInt64) (tag : String) :
    ∃ g, MarshallingPlan.replaceByCopy m f copy site dest source size tag = (g, none) ∧
      Copied f site copy dest source g := by
  have first := toBytePointer_pointed f f.freshId f.freshMention (tag ++ ".dst") dest
  have second := toBytePointer_pointed f (f.freshId + 1) (f.freshMention + 1) (tag ++ ".src") source
  obtain ⟨h, done, inserted, accepted⟩ := casts_inserted coherent member held known free first second copy
    (f.freshMention + 2) size m
  obtain ⟨c, within, still⟩ := inserted.held member held
  obtain ⟨g, gone, placed, noted, replaced⟩ := Function.replaceCallSite_placed inserted.coherent within still accepted [] m
  exact ⟨_, replaceByCopy_eq rfl rfl done replaced, copied_of_placed coherent first second inserted placed rfl
    (h.newcomer_unseen site _ .void []) noted known within still fun v held other => Function.newcomer_apart held other⟩

end

end CallFusion
