import CallFusion.Proofs.Ir.LocalNames
import CallFusion.Proofs.Merge.Placement
import CallFusion.Proofs.Merge.Renaming

/-!
Names of the casts that copies need. A cast takes the first free name of its own base, where free means that no
parameter, block or instruction has it. Results of terminators share the names of these but are not asked, and so a
cast may come to be named like one.
-/

namespace CallFusion

open Ir

variable {σ : Type}

def candidate (base : String) (k : Nat) : String := if k = 0 then base else base ++ "." ++ toString k

section

variable {base : String} {used : List String}

theorem candidate_toList (base : String) (k : Nat) : ∃ rest, (candidate base k).toList = base.toList ++ rest := by
  unfold candidate
  split
  · exact ⟨[], (List.append_nil _).symm⟩
  · exact ⟨("." ++ toString k).toList, by simp⟩

theorem candidate_injective (base : String) : Function.Injective (candidate base) := by
  have other : ∀ k : Nat, base ++ "." ++ toString k ≠ base := fun k same => by
    have length := congrArg String.length same
    simp only [String.length_append] at length
    have dot : ".".length = 1 := rfl
    omega
  intro j k same
  unfold candidate at same
  split at same <;> split at same
  · omega
  · exact absurd same.symm (other k)
  · exact absurd same (other j)
  · have digits := (String.append_right_inj _).mp same
    simp only [Nat.toString_eq_repr, Nat.repr_eq_ofList_toDigits, String.ofList_inj] at digits
    have value := congrArg (Nat.ofDigitChars 10 · 0) digits
    simpa only [Nat.ofDigitChars_toDigits (by decide : 1 < 10) (by decide : 10 ≤ 10)] using value

theorem candidate_ne {base' : String} (differ : base ≠ base') (length : base.toList.length = base'.toList.length) (j k : Nat) :
    candidate base j ≠ candidate base' k := by
  intro same
  obtain ⟨rest, form⟩ := candidate_toList base j
  obtain ⟨rest', form'⟩ := candidate_toList base' k
  rw [same, form'] at form
  exact differ (String.toList_inj.mp (List.append_inj_left form length.symm).symm)

/-- The search stops at a name that is not in use, or at the end of what it may try. -/
theorem uniqueFrom_eq {fuel i : Nat} (some : 0 < i + fuel) : ∃ k, uniqueFrom used base fuel i = candidate base k ∧
    (candidate base k ∉ used ∨ k = i + fuel) ∧ ∀ j, i ≤ j → j < k → candidate base j ∈ used := by
  induction fuel generalizing i with
  | zero =>
    refine ⟨i, ?_, .inr rfl, fun j first last => absurd last (by omega)⟩
    rw [uniqueFrom, candidate, if_neg (by omega)]
  | succ fuel ih =>
    have tried : (if i = 0 then base else base ++ "." ++ toString i) = candidate base i := rfl
    rw [uniqueFrom, tried]
    split
    · next taken =>
      obtain ⟨k, found, free, earlier⟩ := @ih (i + 1) (by omega)
      refine ⟨k, found, free.imp_right (by omega), fun j first last => ?_⟩
      rcases Nat.eq_or_lt_of_le first with rfl | later
      · exact List.contains_iff_mem.mp taken
      · exact earlier j later last
    · next free => exact ⟨i, rfl, .inl (by simpa using free), fun j first last => absurd last (by omega)⟩

theorem usedNames_length_pos {f : Function} (given : f.params ≠ []) : 0 < (usedNames f).length := by
  rw [usedNames, List.length_append, List.length_map]
  have := List.length_pos_iff.mpr given
  omega

theorem uniqueName_eq {f : Function} (given : f.params ≠ []) (base : String) :
    ∃ k, uniqueName f base = candidate base k ∧ candidate base k ∉ usedNames f := by
  obtain ⟨k, found, free, earlier⟩ := @uniqueFrom_eq base (usedNames f) _ 0 (by simpa using usedNames_length_pos given)
  refine ⟨k, found, free.elim id fun last taken => ?_⟩
  have within : (List.range (k + 1)).map (candidate base) ⊆ usedNames f := by
    intro name tried
    obtain ⟨j, listed, rfl⟩ := List.mem_map.mp tried
    rcases Nat.lt_succ_iff_lt_or_eq.mp (List.mem_range.mp listed) with early | rfl
    · exact earlier j (Nat.zero_le j) early
    · exact taken
  have count := (List.nodup_range.map (candidate_injective base)).length_le_of_subset within
  rw [List.length_map, List.length_range] at count
  omega

theorem uniqueName_free {f : Function} (given : f.params ≠ []) (free : base ∉ usedNames f) : uniqueName f base = base := by
  obtain ⟨k, found, _, earlier⟩ := @uniqueFrom_eq base (usedNames f) _ 0 (by simpa using usedNames_length_pos given)
  rcases Nat.eq_zero_or_pos k with rfl | later
  · exact found
  · exact absurd (earlier 0 (Nat.le_refl 0) later) free

end

namespace Ir.Function

variable {f : Function} {id : LocalId} {s : String}

theorem Labels.used (labels : f.Labels id s) : (Ident.named s).shown ∈ usedNames f := by
  rcases labels with ⟨p, given, _, ident⟩ | ⟨b, member, listed⟩
  · exact List.mem_append_left _ (List.mem_map.mpr ⟨p, given, by rw [ident]⟩)
  · refine List.mem_append_right _ (List.mem_flatMap.mpr ⟨b, member, ?_⟩)
    rcases List.mem_cons.mp listed with own | inst
    · rw [(Prod.mk.inj own).2]
      exact List.mem_cons_self
    · obtain ⟨i, held, same⟩ := List.mem_map.mp inst
      obtain ⟨carried, numbered⟩ := List.mem_filter.mp held
      refine List.mem_cons_of_mem _ (List.mem_map.mpr ⟨i, List.mem_filter.mpr ⟨carried, ?_⟩, by rw [(Prod.mk.inj same).2]⟩)
      exact (Bool.and_eq_true _ _ ▸ numbered).1

end Ir.Function

/-- A name that is looked for is that of no parameter, block or instruction, if its base does not read as a number. -/
theorem not_labels_uniqueName {f : Function} (given : f.params ≠ []) {base : String} {c : Char} (present : c ∈ base.toList)
    (digit : c.isDigit = false) (minus : c ≠ '-') (plus : c ≠ '+') (id : LocalId) : ¬ f.Labels id (uniqueName f base) := by
  intro labels
  obtain ⟨k, found, free⟩ := uniqueName_eq given base
  obtain ⟨rest, form⟩ := candidate_toList base k
  have inside : c ∈ (candidate base k).toList := form ▸ List.mem_append_left _ present
  have used := labels.used
  rw [found, Ident.shown_named inside digit minus plus] at used
  exact free used

theorem AsBytes.cast {name : String} {v : Value} {made : Value × List Instruction} (bytes : AsBytes name v made) :
    ∀ i ∈ made.2, i.ident = .named name ∧ i.isNumbered = true ∧ made.2 = [i] := by
  intro i listed
  cases bytes with
  | plain => cases listed
  | constant => cases listed
  | instruction cast _ _ ident type op =>
    obtain rfl := List.mem_singleton.mp listed
    refine ⟨ident, ?_, rfl⟩
    rw [Instruction.isNumbered, op, type]
    rfl

namespace Transfer.Realised

variable {t : Transfer} {copy : Function} {first second : String} {x : Swap}

theorem silent (realised : t.Realised copy first second x) : x.call.isNumbered = false := by
  rw [Instruction.isNumbered, realised.type]
  exact Bool.and_false _

theorem cast (realised : t.Realised copy first second x) :
    ∀ i ∈ x.ahead, (i.ident = .named first ∨ i.ident = .named second) ∧ i.isNumbered = true := by
  obtain ⟨dest, source, _, bytes, bytes', ahead, _⟩ := realised.op
  intro i listed
  rw [ahead] at listed
  rcases List.mem_append.mp listed with inDest | inSource
  · exact ⟨.inl (bytes.cast i inDest).1, (bytes.cast i inDest).2.1⟩
  · exact ⟨.inr (bytes'.cast i inSource).1, (bytes'.cast i inSource).2.1⟩

theorem cast_unique (realised : t.Realised copy first second x) (differ : first ≠ second) {i j : Instruction}
    (one : i ∈ x.ahead) (other : j ∈ x.ahead) (same : i.ident = j.ident) : i = j := by
  obtain ⟨dest, source, _, bytes, bytes', ahead, _⟩ := realised.op
  rw [ahead] at one other
  rcases List.mem_append.mp one with inDest | inSource <;> rcases List.mem_append.mp other with inDest' | inSource'
  · obtain ⟨_, _, only⟩ := bytes.cast i inDest
    exact (List.mem_singleton.mp (only ▸ inDest')).symm
  · rw [(bytes.cast i inDest).1, (bytes'.cast j inSource').1, Ident.named.injEq] at same
    exact absurd same differ
  · rw [(bytes'.cast i inSource).1, (bytes.cast j inDest').1, Ident.named.injEq] at same
    exact absurd same.symm differ
  · obtain ⟨_, _, only⟩ := bytes'.cast i inSource
    exact (List.mem_singleton.mp (only ▸ inSource')).symm

end Transfer.Realised

/-- No two parameters, blocks or instructions bear one name. -/
def Ir.Function.LabelsApart (f : Function) : Prop := ∀ id id' s, f.Labels id s → f.Labels id' s → id = id'

namespace Transferred

variable {copy f g : Function} {t : Transfer} {x : Swap}

theorem names (step : Transferred copy t f x g) (given : f.params ≠ []) : ∀ i ∈ x.ahead, i.isNumbered = true ∧
    (∀ id s, i.ident = .named s → ¬ f.Labels id s) ∧
    ∃ base ∈ [t.tag ++ ".dst", t.tag ++ ".src"], ∃ k, i.ident = .named (candidate base k) := by
  intro i ahead
  obtain ⟨ident, numbered⟩ := step.realised.cast i ahead
  have named : ∀ base ∈ [t.tag ++ ".dst", t.tag ++ ".src"], i.ident = .named (uniqueName f base) →
      (∀ id s, i.ident = .named s → ¬ f.Labels id s) ∧ ∃ k, i.ident = .named (candidate base k) := by
    intro base listed same
    obtain ⟨k, found, _⟩ := uniqueName_eq given base
    refine ⟨fun id s form => ?_, k, found ▸ same⟩
    rw [same, Ident.named.injEq] at form
    rw [← form]
    refine not_labels_uniqueName given (?_ : '.' ∈ base.toList) (by decide) (by decide) (by decide) id
    simp only [List.mem_cons, List.not_mem_nil, or_false] at listed
    rcases listed with rfl | rfl <;> simp
  rcases ident with same | same
  · obtain ⟨apart, k, form⟩ := named _ List.mem_cons_self same
    exact ⟨numbered, apart, _, List.mem_cons_self, k, form⟩
  · obtain ⟨apart, k, form⟩ := named _ (List.mem_cons_of_mem _ List.mem_cons_self) same
    exact ⟨numbered, apart, _, List.mem_cons_of_mem _ List.mem_cons_self, k, form⟩

theorem labelsApart (step : Transferred copy t f x g) (given : f.params ≠ []) (params : g.params = f.params)
    (apart : f.LabelsApart) : g.LabelsApart := by
  have silent : ∀ z ∈ [x], z.call.isNumbered = false := fun z only => List.mem_singleton.mp only ▸ step.realised.silent
  have differ : uniqueName f (t.tag ++ ".dst") ≠ uniqueName f (t.tag ++ ".src") := by
    obtain ⟨j, first, _⟩ := uniqueName_eq given (t.tag ++ ".dst")
    obtain ⟨k, second, _⟩ := uniqueName_eq given (t.tag ++ ".src")
    rw [first, second]
    refine candidate_ne (fun same => ?_) (by simp) j k
    exact absurd ((String.append_right_inj _).mp same) (by decide)
  intro id id' s one other
  rcases one.before params step.blocks silent with old | ⟨z, only, i, ahead, rfl, ident⟩ <;>
    rcases other.before params step.blocks silent with old' | ⟨z', only', j, ahead', rfl, ident'⟩
  · exact apart id id' s old old'
  · rw [List.mem_singleton.mp only'] at ahead'
    exact absurd old ((step.names given j ahead').2.1 id s ident')
  · rw [List.mem_singleton.mp only] at ahead
    exact absurd old' ((step.names given i ahead).2.1 id' s ident)
  · rw [List.mem_singleton.mp only] at ahead
    rw [List.mem_singleton.mp only'] at ahead'
    rw [step.realised.cast_unique differ ahead ahead' (ident.trans ident'.symm)]

end Transferred

def castBases : List String := ["recv.dst", "recv.src", "send.dst", "send.src"]

namespace Relayed

variable {plan : MarshallingPlan} {copy f g : Function} {result args : Param} {xs : List Swap} {y : Swap}
  (relayed : Relayed plan copy result args f xs y g)

include relayed

theorem params : g.params = f.params := by rw [relayed.frame]

theorem casts (given : f.params ≠ []) : ∀ x ∈ xs ++ [y], ∀ i ∈ x.ahead,
    i.isNumbered = true ∧ ∃ base ∈ castBases, ∃ k, i.ident = .named (candidate base k) := by
  obtain ⟨between, received, sent⟩ := relayed.steps
  have ofSent : f.params = between.params → ∀ i ∈ y.ahead,
      i.isNumbered = true ∧ ∃ base ∈ castBases, ∃ k, i.ident = .named (candidate base k) := by
    intro params i ahead
    obtain ⟨numbered, _, base, listed, form⟩ := sent.names (params ▸ given) i ahead
    exact ⟨numbered, base, List.mem_append_right ["recv.dst", "recv.src"] listed, form⟩
  intro x exchanged i ahead
  cases received with
  | skipped => exact ofSent rfl i (List.mem_singleton.mp exchanged ▸ ahead)
  | done _ params step =>
    rcases List.mem_cons.mp exchanged with rfl | last
    · obtain ⟨numbered, _, base, listed, form⟩ := step.names given i ahead
      exact ⟨numbered, base, List.mem_append_left ["send.dst", "send.src"] listed, form⟩
    · exact ofSent params.symm i (List.mem_singleton.mp last ▸ ahead)

theorem silent : ∀ x ∈ xs ++ [y], x.call.isNumbered = false := by
  intro x exchanged
  obtain ⟨t, _, _, _, realised⟩ := forall₂_mem_right relayed.realised exchanged
  exact realised.silent

theorem labelsApart (given : f.params ≠ []) (apart : f.LabelsApart) : g.LabelsApart := by
  obtain ⟨between, received, sent⟩ := relayed.steps
  cases received with
  | skipped => exact sent.labelsApart given relayed.params apart
  | done _ params step =>
    exact sent.labelsApart (params.symm ▸ given) (relayed.params.trans params.symm) (step.labelsApart given params apart)

theorem added {b : Block} (member : b ∈ g.blocks) {i : Instruction} (carried : i ∈ b.insts) (numbered : i.isNumbered = true)
    (new : i.id ∉ f.localIds) : ∃ x ∈ xs ++ [y], i ∈ x.ahead := by
  obtain ⟨a, within, exchanges⟩ := forall₂_mem_right relayed.blocks member
  rcases exchanges.inst_before carried with ⟨j, held, rfl⟩ | ⟨x, exchanged, placed⟩
  · rw [Swap.settle_id] at new
    exact absurd (Function.mem_localIds_of_block within (Block.inst_id_mem_ids held)) new
  · refine ⟨x, exchanged, (List.mem_append.mp placed).resolve_right fun call => ?_⟩
    rw [List.mem_singleton.mp call, relayed.silent x exchanged] at numbered
    cases numbered

theorem labels_new {id : LocalId} {s : String} (labels : g.Labels id s) (new : id ∉ f.localIds) :
    ∃ b ∈ g.blocks, ∃ i ∈ b.insts, i.isNumbered = true ∧ i.id = id ∧ i.ident = .named s := by
  rcases labels with ⟨p, listed, rfl, _⟩ | ⟨b, member, listed⟩
  · rw [relayed.params] at listed
    exact absurd (Function.mem_localIds_of_param listed) new
  · rcases List.mem_cons.mp listed with own | inst
    · obtain ⟨a, within, exchanges⟩ := forall₂_mem_right relayed.blocks member
      rw [(Prod.mk.inj own).1, exchanges.id] at new
      exact absurd (Function.mem_localIds_of_block within a.id_mem_ids) new
    · obtain ⟨i, held, same⟩ := List.mem_map.mp inst
      obtain ⟨carried, numbered⟩ := List.mem_filter.mp held
      exact ⟨b, member, i, carried, numbered, (Prod.mk.inj same).1, (Prod.mk.inj same).2⟩

theorem nodup_iff (numbered : f.localIds.Nodup) (given : f.params ≠ []) (distinct : f.localNames.Nodup) :
    g.localNames.Nodup ↔ ∀ b ∈ g.blocks, ∀ i ∈ b.insts, i.isNumbered = true → i.id ∉ f.localIds →
      ∀ c ∈ g.blocks, c.term.isNumbered = true → c.term.ident ≠ i.ident := by
  have unique := (Function.localNames_nodup_iff numbered).mp distinct
  rw [Function.localNames_nodup_iff relayed.coherent.numbered]
  constructor
  · intro apart b member i carried result new c within last same
    obtain ⟨x, exchanged, ahead⟩ := relayed.added member carried result new
    obtain ⟨_, base, _, k, form⟩ := relayed.casts given x exchanged i ahead
    have ends : g.Ends c.term.id (candidate base k) := by
      refine ⟨c, within, ?_⟩
      rw [Block.ends, if_pos last, same, form]
      exact List.mem_cons_self
    have labels : g.Labels i.id (candidate base k) :=
      .inr ⟨b, member, List.mem_cons_of_mem _ (List.mem_map.mpr ⟨i, List.mem_filter.mpr ⟨carried, result⟩, by rw [form]⟩)⟩
    have equal := apart _ _ _ (.inl labels) (.inr ends)
    exact new (equal ▸ (ends.before relayed.blocks).mem_localIds)
  · intro other
    -- a cast is named apart from parameters, blocks and instructions; what ends a block is asked for here
    have split : ∀ {id id' : LocalId} {s : String}, g.Labels id s → g.Ends id' s → id = id' := by
      intro id id' s labels ends
      have old := ends.before relayed.blocks
      rcases labels.before relayed.params relayed.blocks relayed.silent with held | ⟨x, exchanged, i, ahead, rfl, ident⟩
      · exact unique _ _ _ (.inl held) (.inr old)
      · have new := relayed.fresh x exchanged i (List.mem_append_left _ ahead)
        obtain ⟨b, member, j, carried, result, same, named⟩ := relayed.labels_new labels new
        obtain ⟨c, within, listed⟩ := ends
        unfold Block.ends at listed
        split at listed
        · next last =>
          have alike := (Prod.mk.inj (List.mem_singleton.mp listed)).2
          exact absurd (alike.symm.trans named.symm) (other b member j carried result (same ▸ new) c within last)
        · cases listed
    have apart : f.LabelsApart := fun _ _ _ first second => unique _ _ _ (.inl first) (.inl second)
    intro id id' s first second
    rcases first with labels | ends <;> rcases second with labels' | ends'
    · exact relayed.labelsApart given apart _ _ _ labels labels'
    · exact split labels ends'
    · exact (split labels' ends).symm
    · exact unique _ _ _ (.inr (ends.before relayed.blocks)) (.inr (ends'.before relayed.blocks))

end Relayed

/-- Carrying out a plan keeps the names of locals distinct, unless a cast is named like the result of a terminator that
is left. It does so whenever no terminator's result has a name that is tried for a cast. -/
theorem local_names_apart_iff {bridge : Bridge σ} {m : Module} {f : Function} {names : MarshallingNames} {payload : Payload}
    {l l' : Locator σ} {plan : MarshallingPlan} {ds : Diagnostics} (coherent : m.Coherent) (listed : f ∈ m.functions)
    (typed : f.Typed) (apart : names.receive ≠ names.send) (distinct : f.localNames.Nodup)
    (planned : (MarshallingPlan.make bridge m (some f) names payload).run l = ((some plan, ds), l'))
    (done : (plan.apply m).2.2 = none) :
    ∃ g, (plan.apply m).1.function? f.id = some g ∧
      (g.localNames.Nodup ↔ ∀ b ∈ g.blocks, ∀ i ∈ b.insts, i.isNumbered = true → i.id ∉ f.localIds →
        ∀ c ∈ g.blocks, c.term.isNumbered = true → c.term.ident ≠ i.ident) ∧
      ((∀ b ∈ f.blocks, b.term.isNumbered = true → ∀ base ∈ castBases, ∀ k, b.term.ident ≠ .named (candidate base k)) →
        g.localNames.Nodup) := by
  obtain ⟨none, _⟩ | ⟨_, same, made, rfl⟩ := MarshallingPlan.make_cases planned
  · cases none
  cases same
  cases declared : declareCopy m with
  | error e =>
    rw [apply_undeclared declared] at done
    cases done
  | ok pair =>
    obtain ⟨n, copy⟩ := pair
    obtain ⟨later, kept⟩ := declareCopy_coherent coherent declared
    obtain ⟨result, args, rest, g, xs, y, params, applied, relayed⟩ := made.relayed coherent listed typed apart declared
    have given : f.params ≠ [] := params ▸ List.cons_ne_nil _ _
    have number : g.id = f.id := by rw [relayed.frame]
    have exact := relayed.nodup_iff (coherent.functions f listed).numbered given distinct
    refine ⟨g, ?_, exact, fun other => exact.mpr fun b member i carried result new c within last same => ?_⟩
    · rw [applied, Module.function?_setFunction, Module.function?_of_mem later.distinct (kept f listed), Option.map_some,
        if_pos (by simp [number])]
    · obtain ⟨x, exchanged, ahead⟩ := relayed.added member carried result new
      obtain ⟨_, base, tried, k, form⟩ := relayed.casts given x exchanged i ahead
      obtain ⟨a, inside, exchanges⟩ := forall₂_mem_right relayed.blocks within
      have ends : (c.term.id, c.term.ident) ∈ a.ends := exchanges.ends (by
        rw [Block.ends, if_pos last]
        exact List.mem_cons_self)
      unfold Block.ends at ends
      split at ends
      · next result =>
        have alike := (Prod.mk.inj (List.mem_singleton.mp ends)).2
        exact other a inside result base tried k (alike.symm.trans (same.trans form))
      · cases ends

namespace Delivery

def other : Function := { outside 1 "other" [] with result := .bytePointer }

def send : Function := outside 2 "send" [.bytePointer]

def personality : Function := { outside 3 "personality" [] with result := .int 32, variadic := true }

def sent : CallSite :=
  ⟨4, some 0, 5, .number 0, .void, { callee := send.value, args := [.value [] (.local 1 .bytePointer)] }, [], none⟩

def invoked (name : String) : CallSite :=
  ⟨2, none, 3, .named name, .bytePointer, { callee := other.value, args := [] }, [], some (.block 4, .block 7)⟩

/-- Sends a result once something else has been invoked, whose result has the given name. -/
def delivering (name : String) : Function where
  id := ⟨0⟩
  symbol := .named "f"
  result := .void
  params := [⟨0, .named "result", .pointer (.int 32) 0, []⟩, ⟨1, .named "args", .bytePointer, []⟩]
  personality := some (.symbol personality.id (.func (.int 32) [] true))
  blocks := [
    { id := 2
      ident := .named "entry"
      insts := []
      term := ⟨3, .named name, .bytePointer, .invoke { callee := other.value, args := [] } (.block 4) (.block 7), []⟩ },
    { id := 4
      ident := .named "next"
      insts := [⟨5, .number 0, .void, .call "" sent.call, []⟩]
      term := ⟨6, .number 0, .void, .ret none, []⟩ },
    { id := 7
      ident := .named "lpad"
      insts := [⟨8, .named "pad", .struct false [.bytePointer, .int 32], .landingPad true [], []⟩]
      term := ⟨9, .number 0, .void, .ret none, []⟩ }]

def program (name : String) : Module where
  functions := [other, send, personality, delivering name]

def locator : Locator Unit := ⟨[], [("other", "other"), ("send", "send")], [], ()⟩

variable {name : String}

theorem program_coherent (name : String) : (program name).Coherent where
  distinct := by
    change List.Nodup [SymbolId.mk 1, ⟨2⟩, ⟨3⟩, ⟨0⟩]
    decide
  functions := by
    simp only [program, List.forall_mem_cons]
    refine ⟨Function.coherent_of_same (f := outside 1 "other" []) rfl rfl (outside_wellFormed 1 _ _).toCoherent,
      (outside_wellFormed 2 _ _).toCoherent,
      Function.coherent_of_same (f := outside 3 "personality" []) rfl rfl (outside_wellFormed 3 _ _).toCoherent, ⟨?_, ?_⟩,
      List.forall_mem_nil _⟩
    · change List.Nodup [0, 1, 2, 3, 4, 5, 6, 7, 8, 9]
      decide
    · simp [delivering, Terminator.targets]

theorem operands_delivering (name : String) : (delivering name).operands =
    [.code other.value, .code (.block 4), .code (.block 7), .code send.value, .code (.local 1 .bytePointer)] := rfl

theorem results_delivering (name : String) : (delivering name).results =
    [.local 0 (.pointer (.int 32) 0), .local 1 .bytePointer, .local 3 .bytePointer, .local 5 .void,
      .local 8 (.struct false [.bytePointer, .int 32])] := rfl

theorem delivering_typed (name : String) : (delivering name).Typed := by
  intro o present v defined id used own
  rw [operands_delivering] at present
  rw [results_delivering] at defined
  simp only [List.mem_cons, List.not_mem_nil, or_false] at present defined
  rcases present with rfl | rfl | rfl | rfl | rfl <;> try cases used
  rcases defined with rfl | rfl | rfl | rfl | rfl <;> cases own
  rfl

theorem other_name : other.name = "other" := by apply Ident.shown_named (c := 'o') <;> simp

theorem send_name : send.name = "send" := by apply Ident.shown_named (c := 's') <;> simp

theorem personality_name : personality.name = "personality" := by apply Ident.shown_named (c := 'p') <;> simp

theorem delivering_name (name : String) : (delivering name).name = "f" := by apply Ident.shown_named (c := 'f') <;> simp

theorem usedNames_delivering (name : String) :
    usedNames (delivering name) = ["result", "args", "entry", "next", "0", "lpad", "pad"] := by
  have result : (Ident.named "result").shown = "result" := by apply Ident.shown_named (c := 'r') <;> simp
  have args : (Ident.named "args").shown = "args" := by apply Ident.shown_named (c := 'a') <;> simp
  have entry : (Ident.named "entry").shown = "entry" := by apply Ident.shown_named (c := 'e') <;> simp
  have next : (Ident.named "next").shown = "next" := by apply Ident.shown_named (c := 'n') <;> simp
  have lpad : (Ident.named "lpad").shown = "lpad" := by apply Ident.shown_named (c := 'l') <;> simp
  have pad : (Ident.named "pad").shown = "pad" := by apply Ident.shown_named (c := 'p') <;> simp
  change [(Ident.named "result").shown, (Ident.named "args").shown, (Ident.named "entry").shown, (Ident.named "next").shown,
    "0", (Ident.named "lpad").shown, (Ident.named "pad").shown] = _
  rw [result, args, entry, next, lpad, pad]

theorem callSites_delivering (name : String) : (delivering name).callSites = [invoked name, sent] := rfl

theorem known_other : (Locator.logical Bridge.inProcess other.name).run locator = ("other", locator) :=
  Locator.logical_known (by rw [other_name]; rfl)

theorem known_send : (Locator.logical Bridge.inProcess send.name).run locator = ("send", locator) :=
  Locator.logical_known (by rw [send_name]; rfl)

theorem known (name : String) : ∀ site ∈ (delivering name).callSites,
    ((Locator.calleeName Bridge.inProcess (program name) (delivering name) site).run locator).2 = locator := by
  simp only [callSites_delivering, List.forall_mem_cons]
  refine ⟨?_, ?_, List.forall_mem_nil _⟩
  · exact congrArg Prod.snd known_other
  · exact congrArg Prod.snd known_send

theorem firstCall_delivering (name wanted : String) (other : wanted ≠ "other") :
    firstCall Bridge.inProcess (program name) (delivering name) locator wanted =
      if "send" = wanted then some sent else none := by
  have first : locator.nameAt Bridge.inProcess (program name) (delivering name) (invoked name) = "other" :=
    congrArg Prod.fst known_other
  have second : locator.nameAt Bridge.inProcess (program name) (delivering name) sent = "send" :=
    congrArg Prod.fst known_send
  simp [firstCall, callSites_delivering, List.find?_cons, first, second, other.symm]
  have ordinary : sent.accepts .ordinary = true := rfl
  have unexceptional : sent.accepts .exceptional = false := rfl
  rw [ordinary, unexceptional]
  by_cases same : "send" = wanted
  · simp [same]
  · simp [same, beq_false_of_ne same]

theorem planned (name : String) : ∃ size ds, (MarshallingPlan.make Bridge.inProcess (program name) (some (delivering name))
    ⟨"recv", "send"⟩ .standard).run locator = ((some ⟨⟨0⟩, none, sent, 0, size⟩, ds), locator) := by
  have receive := findCall_known (known name) "recv"
  have send := findCall_known (known name) "send"
  rw [firstCall_delivering name _ (by decide), if_neg (by decide)] at receive
  rw [firstCall_delivering name _ (by decide), if_pos rfl] at send
  obtain ⟨ds, made⟩ := MarshallingPlan.make_of_send ⟨"recv", "send"⟩ .standard rfl rfl receive send rfl
  exact ⟨_, ds, made⟩

theorem localNames_delivering (name : String) :
    (delivering name).localNames = ["result", "args", "entry", name, "next", "lpad", "pad"] := rfl

theorem undeclared (name : String) : (program name).findFunction copyName = none := by
  refine List.find?_eq_none.mpr ?_
  simp only [program, List.forall_mem_cons, other_name, send_name, personality_name, delivering_name]
  exact ⟨by decide, by decide, by decide, by decide, List.forall_mem_nil _⟩

def plan (size : UInt64) : MarshallingPlan := ⟨⟨0⟩, none, sent, 0, size⟩

theorem relayed (name : String) : ∃ size ds copy g y,
    (MarshallingPlan.make Bridge.inProcess (program name) (some (delivering name)) ⟨"recv", "send"⟩ .standard).run locator =
      ((some (plan size), ds), locator) ∧
    ((plan size).apply (program name)).2.2 = none ∧ ((plan size).apply (program name)).1.function? ⟨0⟩ = some g ∧
    Relayed (plan size) copy ⟨0, .named "result", .pointer (.int 32) 0, []⟩ ⟨1, .named "args", .bytePointer, []⟩
      (delivering name) [] y g := by
  obtain ⟨size, ds, planned⟩ := planned name
  have coherent := program_coherent name
  have listed : delivering name ∈ (program name).functions := by simp [program]
  obtain ⟨none, _⟩ | ⟨_, same, made, _⟩ := MarshallingPlan.make_cases planned
  · cases none
  cases same
  obtain ⟨⟨n, copy⟩, declared⟩ : ∃ pair, declareCopy (program name) = .ok pair := by
    rw [declareCopy, undeclared]
    exact ⟨_, rfl⟩
  obtain ⟨later, kept⟩ := declareCopy_coherent coherent declared
  obtain ⟨_, _, _, g, xs, y, params, applied, relayed⟩ := made.relayed coherent listed (delivering_typed name) (by decide)
    declared
  cases params
  have none : xs = [] := by
    obtain ⟨_, received, _⟩ := relayed.steps
    cases received with
    | skipped => rfl
    | done planned => cases planned
  subst none
  refine ⟨size, ds, copy, g, y, planned, by rw [plan, applied], ?_, relayed⟩
  have number : g.id = ⟨0⟩ := by rw [relayed.frame]; rfl
  have found : n.function? ⟨0⟩ = some (delivering name) := Module.function?_of_mem later.distinct (kept _ listed)
  rw [plan, applied, Module.function?_setFunction, found, Option.map_some, number]
  rfl

/-- A cast is named like the invoke ahead of it. -/
theorem cast_named_like_invoke : ∃ (plan : MarshallingPlan) (ds : Diagnostics) (g : Function),
    (delivering "send.dst").localNames.Nodup ∧
    (MarshallingPlan.make Bridge.inProcess (program "send.dst") (some (delivering "send.dst")) ⟨"recv", "send"⟩
      .standard).run locator = ((some plan, ds), locator) ∧
    (plan.apply (program "send.dst")).2.2 = none ∧ (plan.apply (program "send.dst")).1.function? ⟨0⟩ = some g ∧
    ¬ g.localNames.Nodup := by
  obtain ⟨size, ds, copy, g, y, planned, done, found, relayed⟩ := relayed "send.dst"
  have distinct : (delivering "send.dst").localNames.Nodup := by
    rw [localNames_delivering]
    decide
  refine ⟨plan size, ds, g, distinct, planned, done, found, fun apart => ?_⟩
  have free : uniqueName (delivering "send.dst") "send.dst" = "send.dst" :=
    uniqueName_free (List.cons_ne_nil _ _) (by rw [usedNames_delivering]; decide)
  obtain ⟨_, received, sent⟩ := relayed.steps
  cases received
  obtain ⟨dest, source, mention, bytes, _, ahead, _⟩ := sent.realised.op
  obtain ⟨cast, first, ident, numbered⟩ : ∃ i ∈ y.ahead, i.ident = .named "send.dst" ∧ i.isNumbered = true := by
    cases bytes with
    | plain bytes =>
      have other : (Ty.pointer (.int 32) 0).same .bytePointer = false := by
        simp [Ty.same, Ty.bytePointer, Ty.canonical, Ty.text, Ty.spaceText]
        decide
      cases bytes.symm.trans other
    | constant _ _ _ _ held => cases held
    | instruction cast _ _ ident type op =>
      have listed : cast ∈ y.ahead := ahead ▸ List.mem_append_left _ List.mem_cons_self
      exact ⟨cast, listed, ident.trans (congrArg Ident.named free), (sent.realised.cast cast listed).2⟩
  have new := relayed.fresh y (List.mem_singleton.mpr rfl) cast (List.mem_append_left _ first)
  have clash := (relayed.nodup_iff (program_coherent "send.dst" |>.functions _ (by simp [program])).numbered
    (List.cons_ne_nil _ _) distinct).mp apart
  have site : y.site = Delivery.sent := sent.realised.site
  obtain ⟨c, within, entry⟩ := forall₂_mem_left relayed.blocks List.mem_cons_self
  obtain ⟨d, behind, next⟩ := forall₂_mem_left relayed.blocks (List.mem_cons_of_mem _ List.mem_cons_self)
  have placed := next.placed (x := y) List.mem_cons_self (by rw [List.nil_append, Swap.at?_singleton, site]; rfl) cast
    (List.mem_append_left _ first)
  have invoked := entry.kept (by rw [List.nil_append, Swap.at?_singleton, site]; rfl)
  refine clash d behind cast placed numbered new c within ?_ ?_
  · rw [invoked, Swap.settleTerm_isNumbered]
    rfl
  · rw [invoked, Swap.settleTerm_ident, ident]

/-- With an invoke of another name, the cast is the only local of its name. -/
theorem cast_apart_from_invoke : ∃ (plan : MarshallingPlan) (ds : Diagnostics) (g : Function),
    (delivering "answer").localNames.Nodup ∧
    (MarshallingPlan.make Bridge.inProcess (program "answer") (some (delivering "answer")) ⟨"recv", "send"⟩
      .standard).run locator = ((some plan, ds), locator) ∧
    (plan.apply (program "answer")).2.2 = none ∧ (plan.apply (program "answer")).1.function? ⟨0⟩ = some g ∧
    g.localNames.Nodup := by
  obtain ⟨size, ds, _, _, _, planned, done, _⟩ := relayed "answer"
  have distinct : (delivering "answer").localNames.Nodup := by
    rw [localNames_delivering]
    decide
  obtain ⟨g, found, _, kept⟩ := local_names_apart_iff (program_coherent "answer") (by simp [program])
    (delivering_typed "answer") (by decide) distinct planned done
  refine ⟨plan size, ds, g, distinct, planned, done, found, kept ?_⟩
  have other : ∀ base ∈ castBases, ∀ k, Ident.named "answer" ≠ .named (candidate base k) := by
    intro base listed k same
    obtain ⟨rest, form⟩ := candidate_toList base k
    rw [← Ident.named.inj same] at form
    simp only [castBases, List.mem_cons, List.not_mem_nil, or_false] at listed
    rcases listed with rfl | rfl | rfl | rfl <;> simp at form
  simp only [delivering, List.forall_mem_cons]
  exact ⟨fun _ => other, nofun, nofun, nofun⟩

end Delivery

end CallFusion
