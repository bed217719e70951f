import CallFusion.Proofs.Ir.Spelling

/-!
The string behind an operand. The search goes back through casts and address computations to a global, and reads the first
character array of what the global holds off its text. It finds the right one if each name that is printed ahead of it stands
without quotes or does not end in `c`.
-/

namespace CallFusion.Ir

open CallFusion.Text

theorem findSome?_flatMap {α β γ : Type} (l : List α) (g : α → List β) (p : β → Option γ) :
    (l.flatMap g).findSome? p = l.findSome? fun x => (g x).findSome? p := by
  rw [← List.head?_filterMap, List.filterMap_flatMap, List.head?_flatMap]
  simp only [List.head?_filterMap]

theorem findSome?_congr {α β : Type} {l : List α} {p q : α → Option β} (same : ∀ x ∈ l, p x = q x) :
    l.findSome? p = l.findSome? q := by
  rw [← List.head?_filterMap, List.filterMap_congr same, List.head?_filterMap]

theorem findSome?_split {α β : Type} {l : List α} {p : α → Option β} {b : β} (found : l.findSome? p = some b) :
    ∃ x later, l = l.takeWhile (fun y => (p y).isNone) ++ x :: later ∧ p x = some b := by
  obtain ⟨front, x, later, rfl, here, passed⟩ := List.findSome?_eq_some_iff.mp found
  have ahead : (front ++ x :: later).takeWhile (fun y => (p y).isNone) = front := by
    rw [List.takeWhile_append_of_pos fun y listed => Option.isNone_iff_eq_none.mpr (passed y listed),
      List.takeWhile_cons_of_neg (by simp [here]), List.append_nil]
  exact ⟨x, later, by rw [ahead], here⟩

def Spelling.chars? : Spelling → Option (List UInt8)
  | chars bs => some bs
  | _ => none

theorem Ident.chars?_spelled (i : Ident) : i.spelled.findSome? Spelling.chars? = none := by
  cases i <;> rfl

namespace Ty

mutual
theorem chars?_spelled : ∀ t : Ty, t.spelled.findSome? Spelling.chars? = none
  | pointer elem _ => by simpa only [spelled] using chars?_spelled elem
  | array _ elem => by simpa only [spelled] using chars?_spelled elem
  | vector _ _ elem => by simpa only [spelled] using chars?_spelled elem
  | struct _ fields => by simpa only [spelled] using chars?_spelledEach fields
  | func result params _ => by
    rw [spelled, List.findSome?_append, chars?_spelled result, chars?_spelledEach params]
    rfl
  | named _ | synonym _ _ | int _ | float _ | void | label | token | metadata | mmx | unset => by
    simp [spelled, Spelling.chars?]

theorem chars?_spelledEach : ∀ ts : List Ty, (spelledEach ts).flatten.findSome? Spelling.chars? = none
  | [] => rfl
  | t :: ts => by
    rw [spelledEach, List.flatten_cons, List.findSome?_append, chars?_spelled t, chars?_spelledEach ts]
    rfl
end

end Ty

namespace Constant

variable {names : Ir.Names} {c : Constant} {bs : List UInt8}

def firstChars? (c : Constant) : Option (List UInt8) :=
  match c with
  | chars bs => some bs
  | c => c.children.attach.findSome? fun child => firstChars? child.1
termination_by sizeOf c
decreasing_by exact sizeOf_child child.2

theorem firstChars?_eq (other : ∀ bs, c ≠ chars bs) : c.firstChars? = c.children.findSome? firstChars? := by
  rw [firstChars?]
  · conv => rhs; rw [← List.attach_map_subtype_val c.children, List.findSome?_map]
    rfl
  · exact fun bs same => other bs same

theorem chars?_ahead (other : ∀ bs, c ≠ chars bs) : (c.ahead names).findSome? Spelling.chars? = Option.none := by
  cases c with
  | chars bs => exact absurd rfl (other bs)
  | symbol id _ => exact Ident.chars?_spelled (names.symbol id)
  | reached _ id _ => exact Ident.chars?_spelled (names.symbol id)
  | blockAddress fn _ b => rw [ahead, List.findSome?_append, Ident.chars?_spelled, Ident.chars?_spelled, Option.or_none]
  | gep _ elem _ _ _ => exact elem.chars?_spelled
  | binary _ flags _ _ => exact List.findSome?_eq_none_iff.mpr (by simp [ahead, Spelling.chars?])
  | _ => rfl

theorem chars?_behind (c : Constant) : c.behind.findSome? Spelling.chars? = Option.none := by
  cases c with
  | cast _ _ target => exact target.chars?_spelled
  | _ => rfl

theorem chars?_rendered_of (spelled : (c.spelled names).findSome? Spelling.chars? = c.firstChars?) :
    (c.rendered names).findSome? Spelling.chars? = c.firstChars? := by
  rw [rendered, List.findSome?_append, c.type.chars?_spelled, spelled]
  rfl

theorem chars?_spelled (names : Ir.Names) (c : Constant) : (c.spelled names).findSome? Spelling.chars? = c.firstChars? := by
  have below : ∀ child ∈ c.children, (child.spelled names).findSome? Spelling.chars? = child.firstChars? :=
    fun child listed => chars?_spelled names child
  by_cases array : ∃ bs, c = chars bs
  · obtain ⟨bs, rfl⟩ := array
    rw [spelled_eq (by simp), firstChars?]
    rfl
  rw [firstChars?_eq fun bs same => array ⟨bs, same⟩]
  -- An index that has to stay in range is spelled as what it is, without its type.
  by_cases index : ∃ inner, c = inRange inner
  · obtain ⟨inner, rfl⟩ := index
    rw [spelled, below inner (List.mem_singleton.mpr rfl)]
    simp [children]
  · have inner : c.children.findSome? (fun child => (child.rendered names).findSome? Spelling.chars?) =
        c.children.findSome? firstChars? := findSome?_congr fun child listed => chars?_rendered_of (below child listed)
    rw [spelled_eq fun inner same => index ⟨inner, same⟩, List.findSome?_append, List.findSome?_append,
      chars?_ahead fun bs same => array ⟨bs, same⟩, chars?_behind, findSome?_flatMap, inner, Option.none_or, Option.or_none]
termination_by sizeOf c
decreasing_by exact sizeOf_child listed

def passed (names : Ir.Names) (c : Constant) : List Spelling :=
  (c.rendered names).takeWhile fun x => x.chars?.isNone

/-- The search through the text of a constant finds its first character array, if it overlooks what is ahead of it. -/
theorem firstCharArray?_render (first : c.firstChars? = some bs) (overlooked : ∀ x ∈ c.passed names, x.Overlooked) :
    firstCharArray? (bytes (c.render names)) = some (escape bs) := by
  obtain ⟨x, later, split, array⟩ := findSome?_split ((chars?_rendered_of (chars?_spelled names c)).trans first)
  obtain rfl : x = .chars bs := by
    cases x <;> simp [Spelling.chars?] at array
    rw [array]
  obtain ⟨before, behind, quiet, text⟩ := (spells_render_of (spells_ident names c)).opens split overlooked
  rw [text]
  exact firstCharArray?_of_quiet quiet (escape_notMem bs) behind

end Constant

section

variable {f : Function} {m : Module} {g : Global} {v : Value} {c : Constant} {bs : List UInt8} {steps n : Nat}

theorem Global.string?_of_firstChars? {names : Names} (init : g.init = some c) (first : c.firstChars? = some bs)
    (overlooked : ∀ x ∈ c.passed names, x.Overlooked) : g.string? names = some (dropTrailingNul bs) := by
  unfold Global.string?
  split
  · next none => cases none.symm.trans init
  · next cs array =>
    obtain rfl := Option.some.inj (array.symm.trans init)
    rw [Constant.firstChars?] at first
    rw [Option.some.inj first]
  · next d _ other =>
    obtain rfl := Option.some.inj (other.symm.trans init)
    rw [Constant.firstCharArray?_render first overlooked, Option.map_some, unescapeHex_escape]

/-- A pointer that is derived from a global in so many casts and address computations. -/
inductive Function.DerivedIn (f : Function) (m : Module) (g : Global) : Nat → Value → Prop
  | itself {mention : Nat} {id : SymbolId} {type : Ty} (known : m.global? id = some g) :
      f.DerivedIn m g 0 (.const mention (.symbol id type))
  | cast {id : LocalId} {type target : Ty} {i : Instruction} {x : Value} {steps : Nat} (found : f.instruction? id = some i)
      (op : i.op = .cast .bitcast x target) (rest : f.DerivedIn m g steps x) : f.DerivedIn m g (steps + 1) (.local id type)
  | address {id : LocalId} {type elem : Ty} {i : Instruction} {inbounds : Bool} {x : Value} {indices : List Value} {steps : Nat}
      (found : f.instruction? id = some i) (op : i.op = .gep inbounds elem x indices) (rest : f.DerivedIn m g steps x) :
      f.DerivedIn m g (steps + 1) (.local id type)
  | castOf {mention : Nat} {c : Constant} {target : Ty} {steps : Nat} (rest : f.DerivedIn m g steps (.const mention c)) :
      f.DerivedIn m g (steps + 1) (.const mention (.cast .bitcast c target))
  | addressOf {mention : Nat} {inbounds : Bool} {elem type : Ty} {c : Constant} {indices : List Constant} {steps : Nat}
      (rest : f.DerivedIn m g steps (.const mention c)) :
      f.DerivedIn m g (steps + 1) (.const mention (.gep inbounds elem c indices type))
  | integerOf {mention : Nat} {c : Constant} {target : Ty} {steps : Nat} (rest : f.DerivedIn m g steps (.const mention c)) :
      f.DerivedIn m g (steps + 1) (.const mention (.cast .ptrtoint c target))

theorem Function.symbol?_of_addressSource? {x : Value} (source : f.addressSource? v = some x) : v.symbol? = none := by
  unfold Function.addressSource? at source
  split at source <;> first | rfl | cases source

theorem Function.derivedIn_iff : f.DerivedIn m g steps v ↔
    (steps = 0 ∧ v.symbol?.bind m.global? = some g) ∨
      ∃ x k, steps = k + 1 ∧ f.addressSource? v = some x ∧ f.DerivedIn m g k x := by
  constructor
  · intro derived
    cases derived with
    | itself known => exact .inl ⟨rfl, known⟩
    | cast found op rest => exact .inr ⟨_, _, rfl, by simp [Function.addressSource?, found, op], rest⟩
    | address found op rest => exact .inr ⟨_, _, rfl, by simp [Function.addressSource?, found, op], rest⟩
    | castOf rest => exact .inr ⟨_, _, rfl, rfl, rest⟩
    | addressOf rest => exact .inr ⟨_, _, rfl, rfl, rest⟩
    | integerOf rest => exact .inr ⟨_, _, rfl, rfl, rest⟩
  · rintro (⟨rfl, named⟩ | ⟨x, k, rfl, source, rest⟩)
    · obtain ⟨id, symbol, known⟩ := Option.bind_eq_some_iff.mp named
      unfold Value.symbol? at symbol
      split at symbol
      · cases symbol
        exact .itself known
      · cases symbol
    · unfold Function.addressSource? at source
      split at source
      · obtain ⟨i, found, passed⟩ := Option.bind_eq_some_iff.mp source
        split at passed
        · next op => exact .cast found op (Option.some.inj passed ▸ rest)
        · next op => exact .address found op (Option.some.inj passed ▸ rest)
        · cases passed
      · exact .castOf (Option.some.inj source ▸ rest)
      · exact .integerOf (Option.some.inj source ▸ rest)
      · exact .addressOf (Option.some.inj source ▸ rest)
      · cases source

/-- The search for a global finds the one that a pointer is derived from. -/
theorem Function.globalBehind?_eq_some_iff : f.globalBehind? m n v = some g ↔ ∃ steps, steps ≤ n ∧ f.DerivedIn m g steps v := by
  induction n generalizing v with
  | zero =>
    rw [Function.globalBehind?]
    constructor
    · intro found
      split at found
      · next here => exact ⟨0, Nat.le_refl 0, Function.derivedIn_iff.mpr (.inl ⟨rfl, here.trans found⟩)⟩
      · cases found
    · rintro ⟨steps, short, derived⟩
      obtain rfl := Nat.le_zero.mp short
      rcases Function.derivedIn_iff.mp derived with ⟨_, here⟩ | ⟨_, _, more, _⟩
      · rw [here]
      · cases more
  | succ n ih =>
    rw [Function.globalBehind?]
    constructor
    · intro found
      split at found
      · next here => exact ⟨0, Nat.zero_le _, Function.derivedIn_iff.mpr (.inl ⟨rfl, here.trans found⟩)⟩
      · obtain ⟨x, source, behind⟩ := Option.bind_eq_some_iff.mp found
        obtain ⟨steps, short, derived⟩ := ih.mp behind
        exact ⟨steps + 1, Nat.succ_le_succ short, Function.derivedIn_iff.mpr (.inr ⟨x, steps, rfl, source, derived⟩)⟩
    · rintro ⟨steps, short, derived⟩
      rcases Function.derivedIn_iff.mp derived with ⟨_, here⟩ | ⟨x, k, rfl, source, rest⟩
      · rw [here]
      · have none : v.symbol?.bind m.global? = none := by rw [Function.symbol?_of_addressSource? source, Option.bind_none]
        rw [none, source]
        exact ih.mpr ⟨k, Nat.le_of_succ_le_succ short, rest⟩

/-- The string behind a pointer is the first character array of the global that it is derived from, without a closing zero. -/
theorem Module.stringOperand?_of_derived (derived : f.DerivedIn m g steps v) (near : steps ≤ 16) (init : g.init = some c)
    (first : c.firstChars? = some bs) (overlooked : ∀ x ∈ c.passed (m.names none), x.Overlooked) :
    m.stringOperand? f v = some (dropTrailingNul bs) := by
  rw [Module.stringOperand?, Function.globalBehind?_eq_some_iff.mpr ⟨steps, near, derived⟩, Option.bind_some]
  exact Global.string?_of_firstChars? init first overlooked

end

namespace Tagged

/-- A pointer to a structure of this name, then three letters. -/
def init (tag : String) : Constant :=
  .struct (.struct false [.pointer (.named tag) 0, .array 3 (.int 8)]) false
    [.null (.pointer (.named tag) 0), .chars (bytes "abc")]

def text (tag : String) : Global where
  id := ⟨0⟩
  symbol := .named "s"
  content := (init tag).type
  init := some (init tag)

def mention (tag : String) : Constant := .symbol ⟨0⟩ (.pointer (init tag).type 0)

/-- A function that casts the address of the text, and makes an integer of it. -/
def reader (tag : String) : Function where
  id := ⟨1⟩
  symbol := .named "f"
  result := .void
  params := []
  blocks := [⟨0, .named "entry", [
    ⟨1, .named "p", .bytePointer, .cast .bitcast (.const 0 (mention tag)) .bytePointer, []⟩,
    ⟨2, .named "n", .int 64, .cast .ptrtoint (.const 0 (mention tag)) (.int 64), []⟩],
    ⟨3, .number 0, .void, .ret none, []⟩⟩]

def tagged (tag : String) : Module where
  types := [⟨tag, .opaqueStruct, tag⟩]
  globals := [text tag]
  functions := [reader tag]

theorem abc_read : (tagged "a b").stringOperand? (reader "a b") (.local 1 .bytePointer) = some (bytes "abc") := by
  have derived : (reader "a b").DerivedIn (tagged "a b") (text "a b") 1 (.local 1 .bytePointer) := .cast rfl rfl (.itself rfl)
  have first : (init "a b").firstChars? = some (bytes "abc") := by decide +kernel
  have passed : (init "a b").passed ((tagged "a b").names none) = [.name "a b", .name "a b"] := by decide +kernel
  refine Module.stringOperand?_of_derived derived (by decide) rfl first fun x listed => ?_
  rw [passed] at listed
  obtain rfl : x = .name "a b" := by simpa using listed
  exact .inr (by decide)

theorem render_init (names : Names) (tag : String) : (init tag).render names =
    (init tag).type.text ++ " " ++ Ty.structText false
      [(Ty.pointer (.named tag) 0).text ++ " null", (Ty.array 3 (.int 8)).text ++ " c" ++ quoteBytes (bytes "abc")] := by
  simp only [init, Constant.render, Constant.ident, Constant.renders, Constant.opening, Constant.type, String.append_assoc,
    String.empty_append]
  rfl

/-- What stands between two names that end in `c` is taken for the array; an instruction that makes an integer is not passed. -/
theorem abc_missed : (reader "a c").DerivedIn (tagged "a c") (text "a c") 1 (.local 1 .bytePointer) ∧
    (init "a c").firstChars? = some (bytes "abc") ∧
    (tagged "a c").stringOperand? (reader "a c") (.local 1 .bytePointer) = some (bytes "*, [3 x i8] \x7d \x7b %") ∧
    (tagged "a b").stringOperand? (reader "a b") (.local 2 (.int 64)) = none := by
  have derived : (reader "a c").DerivedIn (tagged "a c") (text "a c") 1 (.local 1 .bytePointer) := .cast rfl rfl (.itself rfl)
  refine ⟨derived, by decide +kernel, ?_, by decide +kernel⟩
  have found : (reader "a c").globalBehind? (tagged "a c") 16 (.local 1 .bytePointer) = some (text "a c") :=
    Function.globalBehind?_eq_some_iff.mpr ⟨1, by decide, derived⟩
  have searched : (text "a c").string? ((tagged "a c").names none) =
      (firstCharArray? (bytes ((init "a c").render ((tagged "a c").names none)))).map fun bs =>
        dropTrailingNul (unescapeHex bs) := rfl
  rw [Module.stringOperand?, found, Option.bind_some, searched, render_init]
  decide +kernel

end Tagged

end CallFusion.Ir
