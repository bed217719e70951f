import CallFusion.Proofs.Ir.Sizes
import Mathlib.Logic.Relation

/-!
Sizes that can be worked out at all. The size of a type asks for the sizes of what the type holds, and the words are doubled
up to a power of two. The doubling ends at words up to the last power of two, and the asking ends unless a type holds itself.
-/

namespace CallFusion.Ir

open Relation

/-- Doubling from `p` on until a word is not below `n`. Behind the last power of two that is a word comes zero, and zero
doubled is zero. -/
inductive Doubles (n : UInt64) : UInt64 → UInt64 → Prop
  | reached {p : UInt64} (enough : ¬ p < n) : Doubles n p p
  | doubled {p q : UInt64} (below : p < n) (on : Doubles n (p <<< 1) q) : Doubles n p q

def Ty.unstored : Ty → Bool
  | .void | .label | .token | .metadata | .mmx | .func _ _ _ | .unset => true
  | _ => false

/-- What is worked out: the storage of a type, or that of a structure from one of its fields on. -/
inductive SizeTask where
  | type (t : Ty)
  | fields (packed : Bool) (fields : List Ty) (offset align : UInt64)

/-- Working something out comes to an end, with an answer. -/
inductive Computes (table : TypeTable) : SizeTask → Extent → Prop
  | int {bits size : UInt64} (doubled : Doubles ((bits + 7) / 8) 1 size) :
    Computes table (.type (.int bits)) (.sized size (min size 8))
  | float {kind : FloatKind} : Computes table (.type (.float kind)) (.sized kind.size kind.size)
  | pointer {elem : Ty} {space : Nat} : Computes table (.type (.pointer elem space)) (.sized 8 8)
  | array {length size align : UInt64} {elem : Ty} (inner : Computes table (.type elem) (.sized size align)) :
    Computes table (.type (.array length elem)) (.sized (alignTo size align * length) align)
  | sizelessArray {length : UInt64} {elem : Ty} (inner : Computes table (.type elem) .unsized) :
    Computes table (.type (.array length elem)) .unsized
  | vector {scalable : Bool} {length size align whole : UInt64} {elem : Ty}
    (inner : Computes table (.type elem) (.sized size align)) (doubled : Doubles (size * length) 1 whole) :
    Computes table (.type (.vector scalable length elem)) (.sized whole (min whole 16))
  | sizelessVector {scalable : Bool} {length : UInt64} {elem : Ty} (inner : Computes table (.type elem) .unsized) :
    Computes table (.type (.vector scalable length elem)) .unsized
  | struct {packed : Bool} {fields : List Ty} {e : Extent} (placed : Computes table (.fields packed fields 0 1) e) :
    Computes table (.type (.struct packed fields)) e
  | synonym {name : String} {body : Ty} {e : Extent} (behind : Computes table (.type body) e) :
    Computes table (.type (.synonym name body)) e
  | named {name : String} {body : Ty} {e : Extent} (defined : table.find? name = some (.is body))
    (behind : Computes table (.type body) e) : Computes table (.type (.named name)) e
  | opaqueStruct {name : String} (defined : table.find? name = some .opaqueStruct) :
    Computes table (.type (.named name)) .unsized
  | unstored {t : Ty} (none : t.unstored = true) : Computes table (.type t) .unsized
  | close {packed : Bool} {offset align : UInt64} :
    Computes table (.fields packed [] offset align) (.sized (alignTo offset align) align)
  | field {packed : Bool} {f : Ty} {fs : List Ty} {offset align size own : UInt64} {e : Extent}
    (inner : Computes table (.type f) (.sized size own))
    (rest : Computes table (.fields packed fs (alignTo offset (if packed then 1 else own) + size)
      (max align (if packed then 1 else own))) e) : Computes table (.fields packed (f :: fs) offset align) e
  | sizelessField {packed : Bool} {f : Ty} {fs : List Ty} {offset align : UInt64}
    (inner : Computes table (.type f) .unsized) : Computes table (.fields packed (f :: fs) offset align) .unsized

/-- The size of the first type asks for that of the second. A structure asks for one field after the other, up to one
without a size. -/
inductive Asks (table : TypeTable) : Ty → Ty → Prop
  | array {length : UInt64} {elem : Ty} : Asks table (.array length elem) elem
  | vector {scalable : Bool} {length : UInt64} {elem : Ty} : Asks table (.vector scalable length elem) elem
  | field {packed : Bool} {before after : List Ty} {f : Ty}
    (sized : ∀ g ∈ before, ∃ size align, Computes table (.type g) (.sized size align)) :
    Asks table (.struct packed (before ++ f :: after)) f
  | synonym {name : String} {body : Ty} : Asks table (.synonym name body) body
  | named {name : String} {body : Ty} (defined : table.find? name = some (.is body)) : Asks table (.named name) body

/-- Nothing that the size of a type asks for is without a definition, holds itself or is a vector whose lanes take up more
than the last power of two. -/
structure Unobstructed (table : TypeTable) (t : Ty) : Prop where
  defined : ∀ name, ReflTransGen (Asks table) t (.named name) → table.find? name ≠ none
  acyclic : ∀ u, ReflTransGen (Asks table) t u → ¬ TransGen (Asks table) u u
  narrow : ∀ scalable length elem size align, ReflTransGen (Asks table) t (.vector scalable length elem) →
    Computes table (.type elem) (.sized size align) → (size * length).toNat ≤ 2 ^ 63

/-! ### Doubling -/

theorem power_toNat (k : Nat) : (2 ^ k).toUInt64.toNat = 2 ^ k % 2 ^ 64 := rfl

theorem power_le (k : Nat) : (2 ^ k).toUInt64.toNat ≤ 2 ^ 63 := by
  rw [power_toNat]
  rcases Nat.lt_or_ge k 64 with small | large
  · calc 2 ^ k % 2 ^ 64 ≤ 2 ^ k := Nat.mod_le _ _
      _ ≤ 2 ^ 63 := Nat.pow_le_pow_right (by decide) (by omega)
  · rw [Nat.mod_eq_zero_of_dvd (Nat.pow_dvd_pow 2 large)]
    exact Nat.zero_le _

theorem power_shift (k : Nat) : (2 ^ k).toUInt64 <<< (1 : UInt64) = (2 ^ (k + 1)).toUInt64 := by
  have one : (1 : UInt64).toNat % 64 = 1 := rfl
  apply UInt64.toNat_inj.mp
  rw [UInt64.toNat_shiftLeft, power_toNat, power_toNat, one, Nat.shiftLeft_eq, Nat.mod_mul_mod, ← Nat.pow_add]

theorem Doubles.le {n : UInt64} {k : Nat} {q : UInt64} (ends : Doubles n (2 ^ k).toUInt64 q) : n.toNat ≤ 2 ^ 63 := by
  generalize start : (2 ^ k).toUInt64 = p at ends
  induction ends generalizing k with
  | reached enough =>
    subst start
    exact (UInt64.le_iff_toNat_le.mp (UInt64.not_lt.mp enough)).trans (power_le k)
  | doubled below on ih =>
    subst start
    exact ih (power_shift k).symm

theorem Doubles.unique {n p q q' : UInt64} (ends : Doubles n p q) (also : Doubles n p q') : q = q' := by
  induction ends with
  | reached enough =>
    cases also with
    | reached => rfl
    | doubled below => exact absurd below enough
  | doubled below on ih =>
    cases also with
    | reached enough => exact absurd below enough
    | doubled _ on' => exact ih on'

theorem doubles_clog {n : Nat} (small : n ≤ 2 ^ 63) {k : Nat} (below : k ≤ Nat.clog 2 n) :
    Doubles n.toUInt64 (2 ^ k).toUInt64 (2 ^ Nat.clog 2 n).toUInt64 := by
  have reached : Nat.clog 2 n ≤ 63 := Nat.clog_le_of_le_pow small
  have compare : ∀ j ≤ Nat.clog 2 n, ((2 ^ j).toUInt64 < n.toUInt64 ↔ j < Nat.clog 2 n) := by
    intro j within
    have word : 2 ^ j < 2 ^ 64 := Nat.pow_lt_pow_right (by decide) (by omega)
    rw [UInt64.lt_iff_toNat_lt, toNat_toUInt64 word, toNat_toUInt64 (by omega), Nat.lt_clog_iff_pow_lt (by decide)]
  induction below using Nat.decreasingInduction with
  | self =>
    apply Doubles.reached
    rw [compare _ le_rfl]
    exact Nat.lt_irrefl _
  | of_succ k less ih =>
    apply Doubles.doubled
    · exact (compare k less.le).mpr less
    · rw [power_shift]
      exact ih

theorem le_of_powerAbove? {n p : UInt64} (found : powerAbove? n = some p) : n.toNat ≤ 2 ^ 63 := by
  obtain ⟨k, listed, tried⟩ := List.exists_of_findSome?_eq_some found
  have small := List.mem_range.mp listed
  dsimp only at tried
  split at tried
  · cases tried
  · next enough =>
    calc n.toNat ≤ (1 <<< k.toUInt64 : UInt64).toNat := UInt64.le_iff_toNat_le.mp (UInt64.not_lt.mp enough)
      _ = 2 ^ k := shifted_toNat small
      _ ≤ 2 ^ 63 := Nat.pow_le_pow_right (by decide) (Nat.le_of_lt_succ small)

theorem doubles_of_le {n : UInt64} (small : n.toNat ≤ 2 ^ 63) : ∃ p, Doubles n 1 p ∧ powerAbove? n = some p := by
  have ends := doubles_clog small (Nat.zero_le _)
  have found := powerAbove?_toUInt64 small
  rw [show n.toNat.toUInt64 = n from UInt64.ofNat_toNat] at ends found
  exact ⟨_, ends, found⟩

theorem doubles_iff {n p : UInt64} : Doubles n 1 p ↔ powerAbove? n = some p := by
  constructor
  · intro ends
    obtain ⟨q, also, found⟩ := doubles_of_le (Doubles.le (k := 0) ends)
    rw [found, ends.unique also]
  · intro found
    obtain ⟨q, ends, also⟩ := doubles_of_le (le_of_powerAbove? found)
    rw [← Option.some.inj (also.symm.trans found)]
    exact ends

theorem doubles_ends_iff {n : UInt64} : (∃ p, Doubles n 1 p) ↔ n.toNat ≤ 2 ^ 63 := by
  constructor
  · rintro ⟨p, ends⟩
    exact Doubles.le (k := 0) ends
  · intro small
    obtain ⟨p, ends, _⟩ := doubles_of_le small
    exact ⟨p, ends⟩

theorem bytes_le (bits : UInt64) : ((bits + 7) / 8).toNat ≤ 2 ^ 63 := by
  have eight : (8 : UInt64).toNat = 8 := rfl
  have below := (bits + 7).toNat_lt
  rw [UInt64.toNat_div, eight]
  omega

/-! ### Answers -/

section

variable {table : TypeTable} {task : SizeTask} {t u : Ty} {e e' : Extent}

theorem Computes.ne_endless (ends : Computes table task e) : e ≠ .endless := by
  induction ends with
  | struct _ ih | synonym _ ih | named _ _ ih | field _ _ _ ih => exact ih
  | _ => exact nofun

theorem Computes.unique (ends : Computes table task e) (also : Computes table task e') : e = e' := by
  induction ends generalizing e' with
  | int doubled =>
    cases also with
    | int doubled' => rw [doubled.unique doubled']
    | unstored none => cases none
  | float | pointer =>
    cases also with
    | unstored none => cases none
    | _ => rfl
  | array _ ih =>
    cases also with
    | array inner =>
      cases ih inner
      rfl
    | sizelessArray inner => cases ih inner
    | unstored none => cases none
  | sizelessArray _ ih =>
    cases also with
    | array inner => cases ih inner
    | _ => rfl
  | vector _ doubled ih =>
    cases also with
    | vector inner doubled' =>
      cases ih inner
      rw [doubled.unique doubled']
    | sizelessVector inner => cases ih inner
    | unstored none => cases none
  | sizelessVector _ ih =>
    cases also with
    | vector inner => cases ih inner
    | _ => rfl
  | struct _ ih =>
    cases also with
    | struct placed => exact ih placed
    | unstored none => cases none
  | synonym _ ih =>
    cases also with
    | synonym behind => exact ih behind
    | unstored none => cases none
  | named defined _ ih =>
    cases also with
    | named defined' behind =>
      cases defined.symm.trans defined'
      exact ih behind
    | opaqueStruct defined' => cases defined.symm.trans defined'
    | unstored none => cases none
  | opaqueStruct defined =>
    cases also with
    | named defined' => cases defined.symm.trans defined'
    | _ => rfl
  | unstored none =>
    cases also with
    | unstored => rfl
    | opaqueStruct | sizelessArray | sizelessVector => rfl
    | _ => cases none
  | close =>
    cases also
    rfl
  | field _ _ ih ih' =>
    cases also with
    | field inner rest =>
      cases ih inner
      exact ih' rest
    | sizelessField inner => cases ih inner
  | sizelessField _ ih =>
    cases also with
    | field inner => cases ih inner
    | sizelessField => rfl

/-! ### What is asked on the way -/

theorem Computes.field_asked {packed : Bool} {before after : List Ty} {f : Ty} {offset align : UInt64}
    (ends : Computes table (.fields packed (before ++ f :: after) offset align) e)
    (sized : ∀ g ∈ before, ∃ size align, Computes table (.type g) (.sized size align)) :
    ∃ e', Computes table (.type f) e' := by
  induction before generalizing offset align with
  | nil =>
    cases ends with
    | field inner => exact ⟨_, inner⟩
    | sizelessField inner => exact ⟨_, inner⟩
  | cons g before ih =>
    obtain ⟨⟨size, own, first⟩, others⟩ := List.forall_mem_cons.mp sized
    cases ends with
    | field _ rest => exact ih rest others
    | sizelessField inner => cases first.unique inner

theorem Computes.asked (ends : Computes table (.type t) e) (asks : Asks table t u) : ∃ e', Computes table (.type u) e' := by
  cases asks with
  | array =>
    cases ends with
    | array inner => exact ⟨_, inner⟩
    | sizelessArray inner => exact ⟨_, inner⟩
    | unstored none => cases none
  | vector =>
    cases ends with
    | vector inner => exact ⟨_, inner⟩
    | sizelessVector inner => exact ⟨_, inner⟩
    | unstored none => cases none
  | field sized =>
    cases ends with
    | struct placed => exact placed.field_asked sized
    | unstored none => cases none
  | synonym =>
    cases ends with
    | synonym behind => exact ⟨_, behind⟩
    | unstored none => cases none
  | named defined =>
    cases ends with
    | named defined' behind =>
      cases defined.symm.trans defined'
      exact ⟨_, behind⟩
    | opaqueStruct defined' => cases defined.symm.trans defined'
    | unstored none => cases none

theorem Computes.reached (ends : Computes table (.type t) e) (below : ReflTransGen (Asks table) t u) :
    ∃ e', Computes table (.type u) e' := by
  induction below with
  | refl => exact ⟨e, ends⟩
  | tail _ asks ih =>
    obtain ⟨_, here⟩ := ih
    exact here.asked asks

/-- Asking for the types of a task, and for what these ask for, comes to an end on every way. -/
def SizeTask.Grounded (table : TypeTable) : SizeTask → Prop
  | .type t => Acc (Function.swap (Asks table)) t
  | .fields _ fs _ _ => ∀ before f after, fs = before ++ f :: after →
    (∀ g ∈ before, ∃ size align, Computes table (.type g) (.sized size align)) → Acc (Function.swap (Asks table)) f

theorem Computes.grounded (ends : Computes table task e) : task.Grounded table := by
  induction ends with
  | int | float | pointer =>
    apply Acc.intro
    intro u asks
    cases asks
  | array _ ih | sizelessArray _ ih | vector _ _ ih | sizelessVector _ ih | synonym _ ih =>
    apply Acc.intro
    intro u asks
    cases asks
    exact ih
  | struct _ ih =>
    apply Acc.intro
    intro u asks
    cases asks with
    | field sized => exact ih _ _ _ rfl sized
  | named defined _ ih =>
    apply Acc.intro
    intro u asks
    cases asks with
    | named defined' =>
      cases defined.symm.trans defined'
      exact ih
  | opaqueStruct defined =>
    apply Acc.intro
    intro u asks
    cases asks with
    | named defined' => cases defined.symm.trans defined'
  | unstored none =>
    apply Acc.intro
    intro u asks
    cases asks <;> cases none
  | close =>
    intro before f after parts
    cases before <;> cases parts
  | field _ _ ih ih' =>
    intro before f after parts sized
    cases before with
    | nil =>
      cases parts
      exact ih
    | cons g before =>
      cases parts
      exact ih' before f after rfl (List.forall_mem_cons.mp sized).2
  | sizelessField inner ih =>
    intro before f after parts sized
    cases before with
    | nil =>
      cases parts
      exact ih
    | cons g before =>
      cases parts
      -- what is behind a field without a size is not asked for
      obtain ⟨size, own, first⟩ := sized _ List.mem_cons_self
      cases inner.unique first

theorem not_transGen_of_acc {α : Type} {r : α → α → Prop} {x : α} (grounded : Acc r x) : ¬ TransGen r x x := by
  replace grounded := grounded.transGen
  induction grounded with
  | intro x _ ih => exact fun cycle => ih x cycle cycle

/-- Where working out a size comes to an end, nothing stands in the way of it. -/
theorem Computes.unobstructed (ends : Computes table (.type t) e) : Unobstructed table t := by
  constructor
  case defined =>
    intro name below missing
    obtain ⟨_, here⟩ := ends.reached below
    cases here with
    | named defined => cases missing.symm.trans defined
    | opaqueStruct defined => cases missing.symm.trans defined
    | unstored none => cases none
  case acyclic =>
    intro u below cycle
    obtain ⟨_, here⟩ := ends.reached below
    exact not_transGen_of_acc here.grounded (transGen_swap.mpr cycle)
  case narrow =>
    intro scalable length elem size align below sized
    obtain ⟨_, here⟩ := ends.reached below
    cases here with
    | vector inner doubled =>
      cases inner.unique sized
      exact doubles_ends_iff.mp ⟨_, doubled⟩
    | sizelessVector inner => cases inner.unique sized
    | unstored none => cases none

theorem Unobstructed.asked (free : Unobstructed table t) (asks : Asks table t u) : Unobstructed table u where
  defined name below := free.defined name (.head asks below)
  acyclic v below := free.acyclic v (.head asks below)
  narrow scalable length elem size align below := free.narrow scalable length elem size align (.head asks below)

end

/-! ### The computation with definitions taken out of the table -/

/-- The definitions of one table are among those of another. -/
def TypeTable.Within (part table : TypeTable) : Prop :=
  ∀ name body, part.find? name = some body → table.find? name = some body

section

variable {part table : TypeTable} {t : Ty}

theorem TypeTable.find?_without_self (table : TypeTable) (name : String) : (table.without name).find? name = none := by
  simp [TypeTable.find?, TypeTable.without, List.find?_filter]

theorem TypeTable.Within.without (within : part.Within table) (name : String) : (part.without name).Within table := by
  intro other body found
  by_cases same : other = name
  · rw [same, part.find?_without_self] at found
    cases found
  · rw [TypeTable.find?_without same] at found
    exact within other body found

theorem computes_powerExtent {n : UInt64} (small : n.toNat ≤ 2 ^ 63) (limit : UInt64) :
    ∃ p, Doubles n 1 p ∧ powerExtent n limit = .sized p (min p limit) := by
  obtain ⟨p, doubled, found⟩ := doubles_of_le small
  refine ⟨p, doubled, ?_⟩
  rw [powerExtent, found]

end

mutual

theorem computes_extent {part table : TypeTable} (within : part.Within table) (t : Ty)
    (ended : extent part t ≠ .endless) : Computes table (.type t) (extent part t) := by
  match t with
  | .int bits =>
    obtain ⟨p, doubled, found⟩ := computes_powerExtent (bytes_le bits) 8
    rw [extent, found]
    exact .int doubled
  | .float kind =>
    rw [extent]
    exact .float
  | .pointer elem space =>
    rw [extent]
    exact .pointer
  | .array length elem =>
    have inner := computes_extent within elem
    rw [extent] at ended ⊢
    cases known : extent part elem with
    | sized size align =>
      rw [known] at inner
      exact .array (inner nofun)
    | unsized =>
      rw [known] at inner
      exact .sizelessArray (inner nofun)
    | endless => simp [known] at ended
  | .vector scalable length elem =>
    have inner := computes_extent within elem
    rw [extent] at ended ⊢
    cases known : extent part elem with
    | sized size align =>
      rw [known] at inner
      simp only [known] at ended ⊢
      unfold powerExtent at ended ⊢
      split
      · next p found => exact .vector (inner nofun) (doubles_iff.mpr found)
      · next none => simp [none] at ended
    | unsized =>
      rw [known] at inner
      exact .sizelessVector (inner nofun)
    | endless => simp [known] at ended
  | .struct packed fields =>
    rw [extent] at ended ⊢
    exact .struct (computes_fieldsExtent within packed fields 0 1 ended)
  | .synonym name body =>
    rw [extent] at ended ⊢
    exact .synonym (computes_extent within body ended)
  | .named name =>
    rw [extent.eq_def] at ended ⊢
    dsimp only at ended ⊢
    split at ended
    · next body defined => exact .named (within _ _ defined) (computes_extent (within.without name) body ended)
    · next defined => exact .opaqueStruct (within _ _ defined)
    · exact absurd rfl ended
  | .void | .label | .token | .metadata | .mmx | .func _ _ _ | .unset =>
    rw [extent]
    exact .unstored rfl
termination_by (part.length, sizeOf t)
decreasing_by
  all_goals first
    | exact Prod.Lex.left _ _ (TypeTable.length_without ‹_›)
    | (apply Prod.Lex.right; simp +arith)

theorem computes_fieldsExtent {part table : TypeTable} (within : part.Within table) (packed : Bool) (fields : List Ty)
    (offset align : UInt64) (ended : fieldsExtent part packed fields offset align ≠ .endless) :
    Computes table (.fields packed fields offset align) (fieldsExtent part packed fields offset align) := by
  match fields with
  | [] =>
    rw [fieldsExtent]
    exact .close
  | f :: fs =>
    have inner := computes_extent within f
    rw [fieldsExtent] at ended ⊢
    cases known : extent part f with
    | sized size own =>
      rw [known] at inner
      simp only [known] at ended ⊢
      exact .field (inner nofun) (computes_fieldsExtent within packed fs _ _ ended)
    | unsized =>
      rw [known] at inner
      exact .sizelessField (inner nofun)
    | endless => simp [known] at ended
termination_by (part.length, sizeOf fields)
decreasing_by
  all_goals (apply Prod.Lex.right; simp +arith)

end

/-- What the table defines and its part does not are names on the way to a type. -/
def TypeTable.LeftBehind (part table : TypeTable) (t : Ty) : Prop :=
  ∀ name, part.find? name = none → table.find? name ≠ none → TransGen (Asks table) (.named name) t

theorem TypeTable.LeftBehind.asked {part table : TypeTable} {t u : Ty} (left : part.LeftBehind table t)
    (asks : Asks table t u) : part.LeftBehind table u :=
  fun name missing defined => (left name missing defined).tail asks

theorem TypeTable.LeftBehind.without {part table : TypeTable} {name : String} {body : Ty}
    (left : part.LeftBehind table (.named name)) (asks : Asks table (.named name) body) :
    (part.without name).LeftBehind table body := by
  intro other missing defined
  by_cases same : other = name
  · rw [same]
    exact .single asks
  · rw [TypeTable.find?_without same] at missing
    exact (left other missing defined).tail asks

mutual

/-- Where nothing stands in the way, the definitions taken out are not missed. -/
theorem extent_ends {part table : TypeTable} (within : part.Within table) (t : Ty) (free : Unobstructed table t)
    (left : part.LeftBehind table t) : extent part t ≠ .endless := by
  match t with
  | .int bits =>
    obtain ⟨p, _, found⟩ := computes_powerExtent (bytes_le bits) 8
    rw [extent, found]
    exact nofun
  | .array length elem =>
    have inner := extent_ends within elem (free.asked .array) (left.asked .array)
    rw [extent]
    cases known : extent part elem with
    | endless => exact absurd known inner
    | _ => exact nofun
  | .vector scalable length elem =>
    have inner := extent_ends within elem (free.asked .vector) (left.asked .vector)
    have computed := computes_extent within elem inner
    rw [extent]
    cases known : extent part elem with
    | sized size align =>
      rw [known] at computed
      obtain ⟨p, _, found⟩ := computes_powerExtent (free.narrow _ _ _ _ _ .refl computed) 16
      simp only [found]
      exact nofun
    | unsized => exact nofun
    | endless => exact absurd known inner
  | .struct packed fields =>
    rw [extent]
    refine fieldsExtent_ends within packed fields 0 1 fun before f after parts sized => ?_
    subst parts
    exact ⟨free.asked (.field sized), left.asked (.field sized)⟩
  | .synonym name body =>
    rw [extent]
    exact extent_ends within body (free.asked .synonym) (left.asked .synonym)
  | .named name =>
    have defined := free.defined name .refl
    rw [extent.eq_def]
    dsimp only
    split
    · next body found =>
      have asks : Asks table (.named name) body := .named (within _ _ found)
      exact extent_ends (within.without name) body (free.asked asks) (left.without asks)
    · exact nofun
    · -- a definition that was taken out was passed on the way here, which would be a circle
      next missing => exact absurd (left name missing defined) (free.acyclic _ .refl)
  | .float _ | .pointer _ _ | .void | .label | .token | .metadata | .mmx | .func _ _ _ | .unset =>
    rw [extent]
    exact nofun
termination_by (part.length, sizeOf t)
decreasing_by
  all_goals first
    | exact Prod.Lex.left _ _ (TypeTable.length_without ‹_›)
    | (apply Prod.Lex.right; simp +arith)

theorem fieldsExtent_ends {part table : TypeTable} (within : part.Within table) (packed : Bool) (fields : List Ty)
    (offset align : UInt64) (each : ∀ before f after, fields = before ++ f :: after →
      (∀ g ∈ before, ∃ size align, Computes table (.type g) (.sized size align)) →
        Unobstructed table f ∧ part.LeftBehind table f) : fieldsExtent part packed fields offset align ≠ .endless := by
  match fields with
  | [] =>
    rw [fieldsExtent]
    exact nofun
  | f :: fs =>
    obtain ⟨free, left⟩ := each [] f fs rfl (List.forall_mem_nil _)
    have inner := extent_ends within f free left
    have computed := computes_extent within f inner
    rw [fieldsExtent]
    cases known : extent part f with
    | sized size own =>
      rw [known] at computed
      refine fieldsExtent_ends within packed fs _ _ fun before g after parts sized => ?_
      exact each (f :: before) g after (parts ▸ rfl) (List.forall_mem_cons.mpr ⟨⟨size, own, computed⟩, sized⟩)
    | unsized => exact nofun
    | endless => exact absurd known inner
termination_by (part.length, sizeOf fields)
decreasing_by
  all_goals (apply Prod.Lex.right; simp +arith)

end

/-! ### When a size is worked out -/

section

variable {table : TypeTable} {t : Ty} {e : Extent}

theorem Unobstructed.extent_ends (free : Unobstructed table t) : extent table t ≠ .endless :=
  Ir.extent_ends (fun _ _ found => found) t free fun _ missing defined => absurd missing defined

theorem computes_iff : Computes table (.type t) e ↔ extent table t = e ∧ e ≠ .endless := by
  have computed : extent table t ≠ .endless → Computes table (.type t) (extent table t) :=
    computes_extent (fun _ _ found => found) t
  constructor
  · intro ends
    exact ⟨(computed ends.unobstructed.extent_ends).unique ends, ends.ne_endless⟩
  · rintro ⟨rfl, ended⟩
    exact computed ended

end

/-- The doubling comes to an end for every word up to the last power of two, so for every width. Working out the size of a
type comes to an end exactly where nothing stands in the way of it, and the answer then is the one of the table from which
definitions are taken out on the way. -/
theorem size_ends_iff (table : TypeTable) (t : Ty) :
    (∀ n : UInt64, (∃ p, Doubles n 1 p) ↔ n.toNat ≤ 2 ^ 63) ∧
    (∀ bits : UInt64, ∃ e, Computes table (.type (.int bits)) e) ∧
    ((∃ e, Computes table (.type t) e) ↔ Unobstructed table t) ∧
    ∀ e, Computes table (.type t) e ↔ extent table t = e ∧ e ≠ .endless := by
  refine ⟨fun n => doubles_ends_iff, fun bits => ?_, ⟨?_, fun free => ?_⟩, fun e => computes_iff⟩
  · obtain ⟨p, doubled⟩ := doubles_ends_iff.mpr (bytes_le bits)
    exact ⟨_, .int doubled⟩
  · rintro ⟨e, ends⟩
    exact ends.unobstructed
  · exact ⟨_, computes_iff.mpr ⟨rfl, free.extent_ends⟩⟩

/-- A structure that holds itself behind a number. -/
def nodeTypes : TypeTable := [⟨"node", .is (.struct false [.int 64, .named "node"]), "node"⟩]

/-- The longest vector of bytes has no size that doubling could reach, and a structure that holds itself has none at all. -/
theorem size_never_ends :
    (¬ ∃ p, Doubles 0xFFFFFFFFFFFFFFFF 1 p) ∧
    (¬ ∃ e, Computes [] (.type (.vector false 0xFFFFFFFFFFFFFFFF (.int 8))) e) ∧
    ¬ ∃ e, Computes nodeTypes (.type (.named "node")) e := by
  have wide : ¬ ∃ p, Doubles 0xFFFFFFFFFFFFFFFF 1 p := by
    rw [doubles_ends_iff]
    decide
  have byte : Computes [] (.type (.int 8)) (.sized 1 1) := .int (.reached (by decide))
  have number : Computes nodeTypes (.type (.int 64)) (.sized 8 8) := computes_iff.mpr ⟨by rw [extent]; decide, nofun⟩
  refine ⟨wide, ?_, ?_⟩
  · rintro ⟨e, ends⟩
    cases ends with
    | vector inner doubled =>
      cases byte.unique inner
      exact wide ⟨_, doubled⟩
    | sizelessVector inner => cases byte.unique inner
    | unstored none => cases none
  · rintro ⟨e, ends⟩
    have body : Asks nodeTypes (.named "node") (.struct false [.int 64, .named "node"]) := .named rfl
    have back : Asks nodeTypes (.struct false ([.int 64] ++ [.named "node"])) (.named "node") :=
      .field (List.forall_mem_singleton.mpr ⟨8, 8, number⟩)
    exact ends.unobstructed.acyclic _ .refl (.tail (.single body) back)

end CallFusion.Ir
