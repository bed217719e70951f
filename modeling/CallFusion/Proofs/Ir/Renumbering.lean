import CallFusion.Ir.Numbering
import CallFusion.Proofs.Except

/-!
Numbering afresh. Once the old numbers are cleared, no local can carry one that it is not due, so numbering never stops. It
depends on nothing that it changes, which makes its outcome canonical: modules that differ in numbers only come to the same,
and what has been numbered afresh is left as it is.
-/

namespace CallFusion.Ir

namespace Numbering

variable {α β : Type} {n : Nat}

theorem bind_eq_ok_iff {act : Numbering α} {next : α → Numbering β} {r : β × Nat} :
    (act >>= next) n = .ok r ↔ ∃ a k, act n = .ok (a, k) ∧ next a k = .ok r := by
  change (act n >>= fun p => next p.1 p.2) = .ok r ↔ _
  rw [Except.bind_eq_ok_iff, Prod.exists]

theorem pure_eq_ok_iff {a : α} {r : α × Nat} : (pure a : Numbering α) n = .ok r ↔ r = (a, n) := by
  change Except.ok (a, n) = .ok r ↔ _
  rw [Except.ok.injEq, eq_comm]

def Finishes (act : Numbering α) : Prop := ∀ n, ∃ r, act n = .ok r

theorem finishes_pure (a : α) : Finishes (pure a) := fun n => ⟨(a, n), rfl⟩

theorem Finishes.bind {act : Numbering α} {next : α → Numbering β} (first : Finishes act)
    (rest : ∀ a, Finishes (next a)) : Finishes (act >>= next) := by
  intro n
  obtain ⟨⟨a, k⟩, run⟩ := first n
  obtain ⟨r, ends⟩ := rest a k
  exact ⟨r, bind_eq_ok_iff.mpr ⟨a, k, run, ends⟩⟩

theorem Finishes.mapM {act : α → Numbering β} {as : List α} (each : ∀ a ∈ as, Finishes (act a)) :
    Finishes (as.mapM act) := by
  induction as with
  | nil => exact finishes_pure []
  | cons a as ih =>
    rw [List.mapM_cons]
    refine (each a List.mem_cons_self).bind fun b => ?_
    exact (ih fun x listed => each x (List.mem_cons_of_mem a listed)).bind fun bs => finishes_pure (b :: bs)

/-- The unnamed among the identifiers carry the numbers from `n` on, up to `k`. -/
def Counts (is : List Ident) (n k : Nat) : Prop :=
  ∃ size, k = n + size ∧ is.filter (·.isUnnamed) = (List.range' n size).map Ident.number

theorem counts_nil (n : Nat) : Counts [] n n := ⟨0, rfl, rfl⟩

theorem Counts.append {is js : List Ident} {n k l : Nat} (first : Counts is n k) (second : Counts js k l) :
    Counts (is ++ js) n l := by
  obtain ⟨size, rfl, ahead⟩ := first
  obtain ⟨more, rfl, behind⟩ := second
  refine ⟨size + more, Nat.add_assoc n size more, ?_⟩
  rw [List.filter_append, ahead, behind, ← List.map_append, List.range'_append_1]

end Numbering

open CallFusion.Ir.Numbering

/-! ### Parts without their numbers -/

def Param.clearNumber (p : Param) : Param := { p with ident := p.ident.clearNumber }

def Instruction.clearNumber (i : Instruction) : Instruction := { i with ident := i.ident.clearNumber }

def Terminal.clearNumber (t : Terminal) : Terminal := { t with ident := t.ident.clearNumber }

def Block.clearNumbers (b : Block) : Block :=
  { b with ident := b.ident.clearNumber, insts := b.insts.map Instruction.clearNumber, term := b.term.clearNumber }

def Instruction.numberedIdents (i : Instruction) : List Ident := if i.isNumbered then [i.ident] else []

def Terminal.numberedIdents (t : Terminal) : List Ident := if t.isNumbered then [t.ident] else []

def Block.numberedIdents (b : Block) : List Ident :=
  b.ident :: (b.insts.flatMap Instruction.numberedIdents ++ b.term.numberedIdents)

def Instruction.silentIdents (i : Instruction) : List Ident := if i.isNumbered then [] else [i.ident]

def Terminal.silentIdents (t : Terminal) : List Ident := if t.isNumbered then [] else [t.ident]

def Block.silentIdents (b : Block) : List Ident := b.insts.flatMap Instruction.silentIdents ++ b.term.silentIdents

def Function.silentIdents (f : Function) : List Ident := f.blocks.flatMap Block.silentIdents

theorem Function.clearNumbers_eq (f : Function) : f.clearNumbers =
    { f with params := f.params.map Param.clearNumber, blocks := f.blocks.map Block.clearNumbers } := rfl

theorem Function.numberedIdents_eq (f : Function) :
    f.numberedIdents = f.params.flatMap (fun p => [p.ident]) ++ f.blocks.flatMap Block.numberedIdents := by
  have insts : ∀ is : List Instruction,
      (is.filter (·.isNumbered)).map (·.ident) = is.flatMap Instruction.numberedIdents := by
    intro is
    induction is with
    | nil => rfl
    | cons i is ih =>
      rw [List.flatMap_cons, ← ih, Instruction.numberedIdents]
      cases numbered : i.isNumbered <;> simp [numbered]
  rw [numberedIdents, List.map_eq_flatMap]
  simp only [insts]
  rfl

/-! ### What numbering makes of a part -/

/-- All but numbers stays, the unnamed among the identifiers that are passed over get the numbers from `n` up to `k`, and
those that are not passed over stay as they are. -/
structure Assigned {α : Type} (clear : α → α) (idents silent : α → List Ident) (a b : α) (n k : Nat) : Prop where
  kept : clear b = clear a
  counted : Counts (idents b) n k
  left : silent b = silent a

theorem Assigned.mapM {α : Type} {clear : α → α} {idents silent : α → List Ident} {act : α → Numbering α}
    (each : ∀ {a b n k}, act a n = .ok (b, k) → Assigned clear idents silent a b n k) {as bs : List α} {n k : Nat}
    (run : as.mapM act n = .ok (bs, k)) :
    Assigned (List.map clear) (List.flatMap idents) (List.flatMap silent) as bs n k := by
  induction as generalizing bs n k with
  | nil =>
    cases pure_eq_ok_iff.mp run
    exact ⟨rfl, counts_nil n, rfl⟩
  | cons a as ih =>
    rw [List.mapM_cons] at run
    obtain ⟨b, l, here, rest⟩ := bind_eq_ok_iff.mp run
    obtain ⟨cs, l', later, last⟩ := bind_eq_ok_iff.mp rest
    cases pure_eq_ok_iff.mp last
    have first := each here
    have others := ih later
    refine ⟨?_, ?_, ?_⟩
    · rw [List.map_cons, List.map_cons, first.kept, others.kept]
    · rw [List.flatMap_cons]
      exact first.counted.append others.counted
    · rw [List.flatMap_cons, List.flatMap_cons, first.left, others.left]

namespace Ident

theorem clearNumber_clearNumber (i : Ident) : i.clearNumber.clearNumber = i.clearNumber := by cases i <;> rfl

theorem finishes_assign (i : Ident) : Finishes i.clearNumber.assign := by
  intro n
  cases i with
  | named s => exact ⟨_, rfl⟩
  | number k => exact ⟨(.number n, n + 1), by simp [clearNumber, assign]⟩

theorem assigned {i j : Ident} {n k : Nat} (run : i.assign n = .ok (j, k)) :
    Assigned Ident.clearNumber (fun i => [i]) (fun _ => []) i j n k := by
  cases i with
  | named s =>
    cases run
    exact ⟨rfl, counts_nil n, rfl⟩
  | number l =>
    rw [assign] at run
    split at run
    · cases run
      exact ⟨rfl, ⟨1, rfl, rfl⟩, rfl⟩
    · cases run

end Ident

theorem Assigned.part {α : Type} {clear : α → α} {idents silent : α → List Ident} {numbered : Bool} {a b : α} {ident : Ident}
    {n k : Nat} (set : Ident → α) (own : set ident = a)
    (kept : ∀ j, j.clearNumber = ident.clearNumber → clear (set j) = clear a)
    (passed : ∀ j, idents (set j) = if numbered then [j] else []) (left : ∀ j, numbered = true → silent (set j) = silent a)
    (run : (if numbered then ident.assign >>= fun j => pure (set j) else pure a : Numbering α) n = .ok (b, k)) :
    Assigned clear idents silent a b n k := by
  split at run
  · next yes =>
    obtain ⟨given, l, here, rest⟩ := bind_eq_ok_iff.mp run
    cases pure_eq_ok_iff.mp rest
    have assigned := Ident.assigned here
    refine ⟨kept given assigned.kept, ?_, left given yes⟩
    rw [passed, if_pos yes]
    exact assigned.counted
  · next no =>
    cases pure_eq_ok_iff.mp run
    refine ⟨rfl, ?_, rfl⟩
    rw [← own, passed, if_neg no]
    exact counts_nil n

namespace Param

theorem finishes_assign (p : Param) : Finishes p.clearNumber.assign :=
  p.ident.finishes_assign.bind fun _ => finishes_pure _

theorem assigned {p q : Param} {n k : Nat} (run : p.assign n = .ok (q, k)) :
    Assigned Param.clearNumber (fun p => [p.ident]) (fun _ => []) p q n k := by
  obtain ⟨j, l, given, rest⟩ := bind_eq_ok_iff.mp run
  cases pure_eq_ok_iff.mp rest
  have ident := Ident.assigned given
  exact ⟨by rw [clearNumber, clearNumber, ident.kept], ident.counted, rfl⟩

end Param

namespace Instruction

theorem finishes_assign (i : Instruction) : Finishes i.clearNumber.assign := by
  rw [assign]
  split
  · exact i.ident.finishes_assign.bind fun _ => finishes_pure _
  · exact finishes_pure _

theorem assigned {i j : Instruction} {n k : Nat} (run : i.assign n = .ok (j, k)) :
    Assigned Instruction.clearNumber Instruction.numberedIdents Instruction.silentIdents i j n k := by
  rw [assign] at run
  refine Assigned.part (fun j => { i with ident := j }) rfl (fun j same => ?_) (fun _ => rfl) (fun j numbered => ?_) run
  · rw [clearNumber, clearNumber, same]
  · exact (if_pos numbered).trans (if_pos numbered).symm

end Instruction

namespace Terminal

theorem finishes_assign (t : Terminal) : Finishes t.clearNumber.assign := by
  rw [assign]
  split
  · exact t.ident.finishes_assign.bind fun _ => finishes_pure _
  · exact finishes_pure _

theorem assigned {t u : Terminal} {n k : Nat} (run : t.assign n = .ok (u, k)) :
    Assigned Terminal.clearNumber Terminal.numberedIdents Terminal.silentIdents t u n k := by
  rw [assign] at run
  refine Assigned.part (fun j => { t with ident := j }) rfl (fun j same => ?_) (fun _ => rfl) (fun j numbered => ?_) run
  · rw [clearNumber, clearNumber, same]
  · exact (if_pos numbered).trans (if_pos numbered).symm

end Terminal

namespace Block

theorem finishes_assign (b : Block) : Finishes b.clearNumbers.assign := by
  have insts : Finishes (b.clearNumbers.insts.mapM Instruction.assign) := by
    refine Finishes.mapM fun i cleared => ?_
    obtain ⟨j, _, rfl⟩ := List.mem_map.mp cleared
    exact j.finishes_assign
  refine b.ident.finishes_assign.bind fun _ => insts.bind fun _ => ?_
  exact b.term.finishes_assign.bind fun _ => finishes_pure _

theorem assigned {b c : Block} {n k : Nat} (run : b.assign n = .ok (c, k)) :
    Assigned Block.clearNumbers Block.numberedIdents Block.silentIdents b c n k := by
  obtain ⟨_, _, given, run⟩ := bind_eq_ok_iff.mp run
  obtain ⟨_, _, inside, run⟩ := bind_eq_ok_iff.mp run
  obtain ⟨_, _, last, run⟩ := bind_eq_ok_iff.mp run
  cases pure_eq_ok_iff.mp run
  have ident := Ident.assigned given
  have insts := Assigned.mapM Instruction.assigned inside
  have term := Terminal.assigned last
  refine ⟨?_, ?_, ?_⟩
  · rw [clearNumbers, clearNumbers, ident.kept, insts.kept, term.kept]
  · exact ident.counted.append (insts.counted.append term.counted)
  · rw [silentIdents, silentIdents, insts.left, term.left]

end Block

/-! ### Functions -/

namespace Function

variable {f g : Function}

theorem clearNumbers_isDeclaration (f : Function) : f.clearNumbers.isDeclaration = f.isDeclaration := by
  rw [isDeclaration, clearNumbers_eq, isDeclaration, List.isEmpty_map]

theorem clearNumbers_clearNumbers (f : Function) : f.clearNumbers.clearNumbers = f.clearNumbers := by
  simp [clearNumbers, Function.comp_def, Ident.clearNumber_clearNumber]

theorem assignNumbers_eq_ok_iff : f.assignNumbers = .ok g ↔ ∃ params blocks n k,
    f.params.mapM Param.assign 0 = .ok (params, n) ∧ f.blocks.mapM Block.assign n = .ok (blocks, k) ∧
      g = { f with params := params, blocks := blocks } := by
  have ends : ∀ (act : Numbering Function), act.run' 0 = .ok g ↔ ∃ k, act 0 = .ok (g, k) := by
    intro act
    change (act 0).map (·.1) = .ok g ↔ _
    cases act 0 with
    | error i => simp [Except.map]
    | ok p =>
      obtain ⟨h, k⟩ := p
      simp [Except.map]
  rw [assignNumbers, ends]
  simp only [bind_eq_ok_iff, pure_eq_ok_iff, Prod.mk.injEq]
  constructor
  · rintro ⟨_, params, n, given, blocks, k, inside, same, rfl⟩
    exact ⟨params, blocks, n, _, given, inside, same⟩
  · rintro ⟨params, blocks, n, k, given, inside, same⟩
    exact ⟨k, params, n, given, blocks, k, inside, same, rfl⟩

/-- A function and the same one numbered afresh. -/
structure NumberedAfresh (f g : Function) : Prop where
  kept : g.clearNumbers = f.clearNumbers
  /-- The unnamed among the locals that have a result carry 0, 1, 2 and so on in their order. -/
  counted : ∃ size, g.numberedIdents.filter (·.isUnnamed) = (List.range size).map Ident.number
  /-- A local without a result carries no number. -/
  silent : ∀ i ∈ g.silentIdents, i.clearNumber = i

theorem assignNumbers_finishes (f : Function) : ∃ g, f.clearNumbers.assignNumbers = .ok g := by
  have params : Finishes ((f.params.map Param.clearNumber).mapM Param.assign) := by
    refine Finishes.mapM fun p cleared => ?_
    obtain ⟨q, _, rfl⟩ := List.mem_map.mp cleared
    exact q.finishes_assign
  have blocks : Finishes ((f.blocks.map Block.clearNumbers).mapM Block.assign) := by
    refine Finishes.mapM fun b cleared => ?_
    obtain ⟨c, _, rfl⟩ := List.mem_map.mp cleared
    exact c.finishes_assign
  obtain ⟨⟨ps, n⟩, given⟩ := params 0
  obtain ⟨⟨bs, k⟩, inside⟩ := blocks n
  exact ⟨_, assignNumbers_eq_ok_iff.mpr ⟨ps, bs, n, k, given, inside, rfl⟩⟩

theorem clearNumber_of_silent {f : Function} {i : Ident} (silent : i ∈ f.clearNumbers.silentIdents) :
    i.clearNumber = i := by
  obtain ⟨b, cleared, inside⟩ := List.mem_flatMap.mp silent
  obtain ⟨c, _, rfl⟩ := List.mem_map.mp cleared
  rcases List.mem_append.mp inside with inst | term
  · obtain ⟨x, held, here⟩ := List.mem_flatMap.mp inst
    obtain ⟨y, _, rfl⟩ := List.mem_map.mp held
    obtain ⟨_, here⟩ := List.mem_ite_nil_left.mp here
    rw [List.mem_singleton.mp here]
    exact y.ident.clearNumber_clearNumber
  · obtain ⟨_, here⟩ := List.mem_ite_nil_left.mp term
    rw [List.mem_singleton.mp here]
    exact c.term.ident.clearNumber_clearNumber

theorem numberedAfresh (run : f.clearNumbers.assignNumbers = .ok g) : f.NumberedAfresh g := by
  obtain ⟨params, blocks, n, k, given, inside, rfl⟩ := assignNumbers_eq_ok_iff.mp run
  have first := Assigned.mapM Param.assigned given
  have rest := Assigned.mapM Block.assigned inside
  refine ⟨?_, ?_, ?_⟩
  · conv => rhs; rw [← clearNumbers_clearNumbers, clearNumbers_eq, ← first.kept, ← rest.kept]
    rfl
  · obtain ⟨size, _, counted⟩ := first.counted.append rest.counted
    rw [numberedIdents_eq]
    exact ⟨size, by rw [counted, List.range_eq_range']⟩
  · intro i silent
    refine clearNumber_of_silent (f := f) ?_
    change i ∈ blocks.flatMap Block.silentIdents at silent
    rw [rest.left] at silent
    exact silent

/-- What numbering afresh comes to depends on no number. -/
theorem renumbered_congr (same : g.clearNumbers = f.clearNumbers) (defined : f.isDeclaration = false) :
    g.renumbered = f.renumbered := by
  have defined' : g.isDeclaration = false := by
    rw [← clearNumbers_isDeclaration, same, clearNumbers_isDeclaration, defined]
  rw [renumbered, renumbered, if_neg (by simp [defined']), if_neg (by simp [defined]), same]

def Renumbered (f g : Function) : Prop := if f.isDeclaration then g = f else f.NumberedAfresh g

theorem renumbered_finishes (f : Function) : ∃ g, f.renumbered = .ok g := by
  rw [renumbered]
  split
  · exact ⟨f, rfl⟩
  · exact f.assignNumbers_finishes

theorem Renumbered.of_ok (run : f.renumbered = .ok g) : f.Renumbered g := by
  rw [renumbered] at run
  unfold Renumbered
  split at run
  · next declared =>
    rw [if_pos declared]
    exact (Except.ok.inj run).symm
  · next defined =>
    rw [if_neg defined]
    exact numberedAfresh run

theorem Renumbered.again (renumbered : f.Renumbered g) (run : f.renumbered = .ok g) : g.renumbered = .ok g := by
  unfold Renumbered at renumbered
  split at renumbered
  · next declared => rw [renumbered]; exact renumbered ▸ run
  · next defined =>
    rw [renumbered_congr renumbered.kept (by simpa using defined), run]

theorem renumbered_symbol (f : Function) (i : Ident) :
    { f with symbol := i }.renumbered = f.renumbered.map fun g => { g with symbol := i } := by
  obtain ⟨g, run⟩ := f.renumbered_finishes
  rw [run]
  rw [renumbered] at run ⊢
  split at run
  · next declared =>
    obtain rfl := Except.ok.inj run
    exact if_pos declared
  · next defined =>
    obtain ⟨params, blocks, n, k, given, inside, rfl⟩ := assignNumbers_eq_ok_iff.mp run
    refine (if_neg defined).trans ?_
    exact assignNumbers_eq_ok_iff.mpr ⟨params, blocks, n, k, given, inside, rfl⟩

end Function

/-! ### Symbols -/

theorem Ident.renumber_renumber (i : Ident) (n : Nat) : (i.renumber n).1.renumber n = i.renumber n := by
  cases i <;> rfl

section

variable {α : Type} {ident : α → Ident} {set : α → Ident → α}

theorem renumberSymbols_twice (ident_set : ∀ a i, ident (set a i) = i) (set_set : ∀ a i j, set (set a i) j = set a j)
    (as : List α) (n : Nat) :
    renumberSymbols ident set (renumberSymbols ident set as n).1 n = renumberSymbols ident set as n := by
  induction as generalizing n with
  | nil => rfl
  | cons a as ih =>
    simp only [renumberSymbols, ident_set, set_set, Ident.renumber_renumber, ih]

theorem mem_renumberSymbols {as : List α} {b : α} {n : Nat} (listed : b ∈ (renumberSymbols ident set as n).1) :
    ∃ a ∈ as, ∃ i, b = set a i := by
  induction as generalizing n with
  | nil => cases listed
  | cons a as ih =>
    rcases List.mem_cons.mp listed with rfl | later
    · exact ⟨a, List.mem_cons_self, _, rfl⟩
    · obtain ⟨c, member, i, same⟩ := ih later
      exact ⟨c, List.mem_cons_of_mem a member, i, same⟩

end

namespace Module

variable {m n : Module}

theorem renumberLocals_eq_ok_iff : m.renumberLocals = .ok n ↔
    ∃ functions, List.Forall₂ (fun f g => f.renumbered = .ok g) m.functions functions ∧
      n = { m with functions := functions } := by
  rw [renumberLocals, Except.bind_eq_ok_iff]
  simp only [Except.mapM_eq_ok_iff, Except.pure_eq_ok_iff, eq_comm (a := n)]

theorem renumberLocals_finishes (m : Module) : ∃ n, m.renumberLocals = .ok n := by
  have each : ∀ fs : List Function, ∃ gs, List.Forall₂ (fun f g => f.renumbered = .ok g) fs gs := by
    intro fs
    induction fs with
    | nil => exact ⟨[], .nil⟩
    | cons f fs ih =>
      obtain ⟨g, first⟩ := f.renumbered_finishes
      obtain ⟨gs, rest⟩ := ih
      exact ⟨g :: gs, .cons first rest⟩
  obtain ⟨functions, run⟩ := each m.functions
  exact ⟨_, renumberLocals_eq_ok_iff.mpr ⟨functions, run, rfl⟩⟩

theorem renumberLocals_self (settled : ∀ f ∈ m.functions, f.renumbered = .ok f) : m.renumberLocals = .ok m :=
  renumberLocals_eq_ok_iff.mpr ⟨m.functions, List.forall₂_same.mpr settled, rfl⟩

theorem settled_of_renumberLocals (run : m.renumberLocals = .ok n) : ∀ g ∈ n.functions, g.renumbered = .ok g := by
  obtain ⟨functions, each, rfl⟩ := renumberLocals_eq_ok_iff.mp run
  intro g listed
  obtain ⟨k, within, rfl⟩ := List.getElem_of_mem listed
  have here := each.get (each.length_eq ▸ within) within
  exact (Function.Renumbered.of_ok here).again here

/-- Globals, aliases and functions with the unnamed ones numbered from `n` on, and the number due next. -/
def numberGlobals : List Global → Nat → List Global × Nat :=
  Ir.renumberSymbols (·.symbol) fun g i => { g with symbol := i }

def numberAliases : List Alias → Nat → List Alias × Nat :=
  Ir.renumberSymbols (·.symbol) fun a i => { a with symbol := i }

def numberFunctions : List Function → Nat → List Function × Nat :=
  Ir.renumberSymbols (·.symbol) fun f i => { f with symbol := i }

theorem numberGlobals_twice (gs : List Global) (n : Nat) : numberGlobals (numberGlobals gs n).1 n = numberGlobals gs n := by
  unfold numberGlobals
  refine renumberSymbols_twice ?_ ?_ gs n <;> intros <;> rfl

theorem numberAliases_twice (as : List Alias) (n : Nat) : numberAliases (numberAliases as n).1 n = numberAliases as n := by
  unfold numberAliases
  refine renumberSymbols_twice ?_ ?_ as n <;> intros <;> rfl

theorem numberFunctions_twice (fs : List Function) (n : Nat) :
    numberFunctions (numberFunctions fs n).1 n = numberFunctions fs n := by
  unfold numberFunctions
  refine renumberSymbols_twice ?_ ?_ fs n <;> intros <;> rfl

theorem numberAliases_resolved {as : List Alias} {n : Nat} {resolved : Bool} (alike : ∀ a ∈ as, a.resolved = resolved) :
    ∀ b ∈ (numberAliases as n).1, b.resolved = resolved := by
  intro b listed
  obtain ⟨a, member, i, rfl⟩ := mem_renumberSymbols listed
  exact alike a member

theorem renumberSymbols_eq (m : Module) : m.renumberSymbols =
    let globals := numberGlobals m.globals 0
    let plain := numberAliases (m.aliases.filter (!·.resolved)) globals.2
    let resolved := numberAliases (m.aliases.filter (·.resolved)) plain.2
    { m with
      globals := globals.1
      aliases := plain.1 ++ resolved.1
      functions := (numberFunctions m.functions resolved.2).1 } := rfl

theorem filter_parted {α : Type} {p : α → Bool} {as bs : List α} (first : ∀ a ∈ as, p a = false)
    (last : ∀ b ∈ bs, p b = true) : (as ++ bs).filter (!p ·) = as ∧ (as ++ bs).filter p = bs := by
  constructor
  · rw [List.filter_append, List.filter_eq_self.mpr fun a listed => by rw [first a listed, Bool.not_false],
      List.filter_eq_nil_iff.mpr fun b listed => by simp [last b listed], List.append_nil]
  · rw [List.filter_append, List.filter_eq_nil_iff.mpr fun a listed => by simp [first a listed],
      List.filter_eq_self.mpr last, List.nil_append]

theorem aliases_parted (as : List Alias) (n k : Nat) :
    ((numberAliases (as.filter (!·.resolved)) n).1 ++ (numberAliases (as.filter (·.resolved)) k).1).filter (!·.resolved) =
        (numberAliases (as.filter (!·.resolved)) n).1 ∧
      ((numberAliases (as.filter (!·.resolved)) n).1 ++ (numberAliases (as.filter (·.resolved)) k).1).filter (·.resolved) =
        (numberAliases (as.filter (·.resolved)) k).1 := by
  apply filter_parted
  · exact numberAliases_resolved fun a listed => by simpa using (List.mem_filter.mp listed).2
  · exact numberAliases_resolved fun a listed => (List.mem_filter.mp listed).2

theorem renumberSymbols_renumberSymbols (m : Module) : m.renumberSymbols.renumberSymbols = m.renumberSymbols := by
  simp only [renumberSymbols_eq, aliases_parted, numberGlobals_twice, numberAliases_twice, numberFunctions_twice]

theorem settled_renumberSymbols (settled : ∀ f ∈ m.functions, f.renumbered = .ok f) :
    ∀ f ∈ m.renumberSymbols.functions, f.renumbered = .ok f := by
  intro f listed
  obtain ⟨g, member, i, rfl⟩ := mem_renumberSymbols listed
  rw [Function.renumbered_symbol, settled g member]
  rfl

/-- The same module up to the numbers of locals in defined functions. -/
structure SameButNumbers (m k : Module) : Prop where
  rest : k = { m with functions := k.functions }
  functions : List.Forall₂ (fun f g => if f.isDeclaration then g = f else g.clearNumbers = f.clearNumbers)
    m.functions k.functions

theorem renumbered_of_same {fs gs hs : List Function}
    (alike : List.Forall₂ (fun f g => if f.isDeclaration then g = f else g.clearNumbers = f.clearNumbers) fs gs)
    (each : List.Forall₂ (fun f h => f.renumbered = .ok h) fs hs) :
    List.Forall₂ (fun g h => g.renumbered = .ok h) gs hs := by
  induction alike generalizing hs with
  | nil =>
    rw [List.forall₂_nil_left_iff.mp each]
    exact .nil
  | cons here _ ih =>
    obtain ⟨h, rest, run, others, rfl⟩ := List.forall₂_cons_left_iff.mp each
    refine .cons ?_ (ih others)
    split at here
    · rw [here, run]
    · next defined => rw [Function.renumbered_congr here (by simpa using defined), run]

theorem SameButNumbers.renumberLocals {k : Module} (same : m.SameButNumbers k) : k.renumberLocals = m.renumberLocals := by
  obtain ⟨n, run⟩ := m.renumberLocals_finishes
  obtain ⟨functions, each, rfl⟩ := renumberLocals_eq_ok_iff.mp run
  rw [run]
  refine renumberLocals_eq_ok_iff.mpr ⟨functions, renumbered_of_same same.functions each, ?_⟩
  conv => rhs; rw [same.rest]

/-- Numbering afresh always succeeds. In every defined function the unnamed locals that have a result get 0, 1, 2 and so on in
their order, and all else stays; so do declarations. Modules that differ in numbers come to the same, and a module that is
numbered afresh stays as it is: it is printed the same once more. -/
theorem numbering_canonical (m : Module) : ∃ n printed text,
    m.renumberLocals = .ok n ∧ n = { m with functions := n.functions } ∧
    List.Forall₂ Function.Renumbered m.functions n.functions ∧
    n.renumberLocals = .ok n ∧ (∀ k, m.SameButNumbers k → k.renumberLocals = .ok n) ∧
    m.format = .ok (printed, text) ∧ printed.format = .ok (printed, text) := by
  obtain ⟨n, run⟩ := m.renumberLocals_finishes
  have settled := settled_of_renumberLocals run
  have again : n.renumberSymbols.renumberLocals = .ok n.renumberSymbols :=
    renumberLocals_self (settled_renumberSymbols settled)
  have first : m.format = .ok (n.renumberSymbols, n.renumberSymbols.text) := by
    rw [format, renumbered, run]
    rfl
  have second : n.renumberSymbols.format = .ok (n.renumberSymbols, n.renumberSymbols.text) := by
    rw [format, renumbered, again]
    simp only [Bind.bind, Except.bind, Pure.pure, Except.pure, renumberSymbols_renumberSymbols]
  obtain ⟨functions, each, form⟩ := renumberLocals_eq_ok_iff.mp run
  refine ⟨n, _, _, run, ?_, ?_, renumberLocals_self settled, fun k same => same.renumberLocals.trans run, first, second⟩
  · rw [form]
  · rw [form]
    exact each.imp fun f g => Function.Renumbered.of_ok

end Module

end CallFusion.Ir
