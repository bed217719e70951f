import CallFusion.Ir.Payload
import CallFusion.Proofs.Ir.Strings
import CallFusion.Proofs.Text.Escapes
import CallFusion.Proofs.Text.Unquoted
import Mathlib.Data.List.Forall2

/-!
What a printed constant spells out: names, words and character arrays, in the order of its text. The search for the first
character array looks for a `c` with a quote behind it. Such a pair opens each character array; other than that it closes a name
that is quoted and ends in `c`.
-/

namespace CallFusion.Ir

open CallFusion.Text

def Unopened : List UInt8 → Prop
  | a :: b :: rest => ¬ (a = 99 ∧ b = 34) ∧ Unopened (b :: rest)
  | _ => True

theorem Unopened.append {a b : List UInt8} (first : Unopened a) (second : Unopened b)
    (seam : a.getLast? = some 99 → b.head? ≠ some 34) : Unopened (a ++ b) := by
  induction a with
  | nil => exact second
  | cons x a ih =>
    cases a with
    | nil =>
      cases b with
      | nil => trivial
      | cons y b =>
        refine ⟨?_, second⟩
        rintro ⟨rfl, rfl⟩
        exact seam rfl rfl
    | cons y a => exact ⟨first.1, ih first.2 (by simpa using seam)⟩

theorem unopened_of_notMem {bs : List UInt8} (unquoted : 34 ∉ bs) : Unopened bs := by
  induction bs with
  | nil => trivial
  | cons x bs ih =>
    cases bs with
    | nil => trivial
    | cons y bs =>
      have rest : 34 ∉ y :: bs := fun listed => unquoted (List.mem_cons_of_mem x listed)
      exact ⟨fun both => rest (both.2 ▸ List.mem_cons_self), ih rest⟩

/-- Nothing in the bytes opens a character array, whatever is ahead of them. -/
structure Quiet (bs : List UInt8) : Prop where
  start : bs.head? ≠ some 34
  unopened : Unopened bs

theorem quiet_of_notMem {bs : List UInt8} (unquoted : 34 ∉ bs) : Quiet bs :=
  ⟨fun starts => unquoted (List.mem_of_head? starts), unopened_of_notMem unquoted⟩

theorem Quiet.append {a b : List UInt8} (first : Quiet a) (second : Quiet b) : Quiet (a ++ b) where
  start := by
    cases a with
    | nil => exact second.start
    | cons => exact first.start
  unopened := first.unopened.append second.unopened fun _ => second.start

/-- Behind quiet bytes, the first character array is found. -/
theorem firstCharArray?_of_quiet {before text : List UInt8} (quiet : Quiet before) (unquoted : 34 ∉ text)
    (behind : List UInt8) : firstCharArray? (before ++ 99 :: 34 :: (text ++ 34 :: behind)) = some text := by
  have unopened := quiet.unopened
  clear quiet
  induction before with
  | nil =>
    have apart : ∀ b ∈ text, (b != 34) = true := fun b listed => bne_iff_ne.mpr fun same => unquoted (same ▸ listed)
    have whole : (text ++ 34 :: behind).takeWhile (· != 34) = text := by
      rw [List.takeWhile_append_of_pos apart]
      simp
    simp [firstCharArray?, whole]
  | cons x before ih =>
    cases before with
    | nil =>
      have passed : ¬ (x = 99 ∧ (99 : UInt8) = 34) := fun both => absurd both.2 (by decide)
      simp only [List.cons_append, List.nil_append] at ih ⊢
      rw [firstCharArray?, if_neg (by simp), ih trivial]
    | cons y before =>
      simp only [List.cons_append] at ih ⊢
      rw [firstCharArray?, if_neg (by simp; exact fun a b => absurd ⟨a, b⟩ unopened.1), ih unopened.2]

theorem bytes_array (bs : List UInt8) : bytes ("c" ++ quoteBytes bs) = 99 :: 34 :: (escape bs ++ [34]) := by
  rw [bytes_append, bytes_quoteBytes]
  rfl

/-- A character array is read back from its text. No quote stands between its quotes, so all that is there is found where the
array is the first one, and it is decoded to the bytes that were escaped, whatever is behind them. -/
theorem array_read_back (bs : List UInt8) :
    unescapeHex (escape bs) = bs ∧ 34 ∉ escape bs ∧ (∀ rest, unescapeHex (escape bs ++ rest) = bs ++ unescapeHex rest) ∧
      ∀ before behind, 34 ∉ before →
        firstCharArray? (before ++ (bytes ("c" ++ quoteBytes bs) ++ behind)) = some (escape bs) := by
  refine ⟨unescapeHex_escape bs, escape_notMem bs, unescapeHex_append bs, fun before behind unquoted => ?_⟩
  rw [bytes_array, List.cons_append, List.cons_append, List.append_assoc, List.singleton_append]
  exact firstCharArray?_of_quiet (quiet_of_notMem unquoted) (escape_notMem bs) behind

/-- Bytes that look like an escape, a quote and a closing zero. -/
theorem lookalike_read_back : 34 ∉ bytes "@s = constant [5 x i8] " ∧
    (firstCharArray? (bytes "@s = constant [5 x i8] " ++ (bytes ("c" ++ quoteBytes [92, 52, 49, 34, 0]) ++ [10]))).map
      unescapeHex = some [92, 52, 49, 34, 0] := by
  have unquoted : 34 ∉ bytes "@s = constant [5 x i8] " := by decide
  obtain ⟨decoded, -, -, found⟩ := array_read_back [92, 52, 49, 34, 0]
  exact ⟨unquoted, by rw [found _ [10] unquoted, Option.map_some, decoded]⟩

/-- A part of a printed constant that may hold a quote. -/
inductive Spelling where
  | name (text : String)
  | word (text : String)
  | chars (bytes : List UInt8)
  deriving DecidableEq, Repr

/-- The search for character arrays passes it over: a name that stands without quotes or does not end in `c`, a word that
holds no quote. -/
def Spelling.Overlooked : Spelling → Prop
  | name s => (bytes s).all isNameByte = true ∨ (bytes s).getLast? ≠ some 99
  | word s => Unquoted s
  | chars _ => False

/-- What a text spells, as a search from its start meets it. -/
structure Spells (s : String) (xs : List Spelling) : Prop where
  quiet : (∀ x ∈ xs, x.Overlooked) → Quiet (bytes s)
  opens : ∀ {ahead later : List Spelling} {bs : List UInt8}, xs = ahead ++ .chars bs :: later →
    (∀ x ∈ ahead, x.Overlooked) → ∃ before behind, Quiet before ∧ bytes s = before ++ 99 :: 34 :: (escape bs ++ 34 :: behind)

namespace Spells

variable {s t : String} {xs ys : List Spelling}

theorem append (first : Spells s xs) (second : Spells t ys) : Spells (s ++ t) (xs ++ ys) where
  quiet overlooked := by
    rw [bytes_append]
    have both := List.forall_mem_append.mp overlooked
    exact (first.quiet both.1).append (second.quiet both.2)
  opens := by
    intro ahead later bs form overlooked
    rw [bytes_append]
    rcases List.append_eq_append_iff.mp form with ⟨more, rfl, rest⟩ | ⟨more, here, rest⟩
    -- The second text spells the array, and all that the first one spells is ahead of it.
    · obtain ⟨front, back⟩ := List.forall_mem_append.mp overlooked
      obtain ⟨before, behind, quiet, found⟩ := second.opens rest back
      exact ⟨bytes s ++ before, behind, (first.quiet front).append quiet, by rw [found, List.append_assoc]⟩
    -- The first text does, unless what it spells ends right ahead of the array.
    · cases more with
      | nil =>
        rw [List.append_nil] at here
        rw [List.nil_append] at rest
        have opening : ys = [] ++ .chars bs :: later := rest.symm
        obtain ⟨before, behind, quiet, found⟩ := second.opens opening (fun _ none => nomatch none)
        exact ⟨bytes s ++ before, behind, (first.quiet (here ▸ overlooked)).append quiet, by rw [found, List.append_assoc]⟩
      | cons x more =>
        obtain ⟨rfl, rfl⟩ := List.cons.inj rest
        obtain ⟨before, behind, quiet, found⟩ := first.opens here overlooked
        exact ⟨before, behind ++ bytes t, quiet, by rw [found]; simp⟩

theorem of_unquoted (unquoted : Unquoted s) : Spells s [] where
  quiet _ := quiet_of_notMem fun listed => unquoted (quote_of_mem_bytes listed)
  opens form := absurd (congrArg List.length form) (by simp)

theorem word (s : String) : Spells s [.word s] where
  quiet overlooked := quiet_of_notMem fun listed => overlooked _ List.mem_cons_self (quote_of_mem_bytes listed)
  opens := by
    intro ahead later bs form
    cases ahead <;> simp at form

theorem name_of {sigil : UInt8} (marked : sigil ≠ 34 ∧ sigil ≠ 99) {name : String}
    (form : 34 ∉ bytes s ∨ ∃ content, 34 ∉ content ∧ bytes s = sigil :: 34 :: (content ++ [34]) ∧
      ((Spelling.name name).Overlooked → content.getLast? ≠ some 99)) : Spells s [.name name] where
  quiet overlooked := by
    rcases form with plain | ⟨content, unquoted, text, last⟩
    · exact quiet_of_notMem plain
    · rw [text]
      refine ⟨by simpa using marked.1, ⟨fun both => marked.2 both.1, ?_⟩⟩
      have closed : Unopened (content ++ [34]) := (unopened_of_notMem unquoted).append trivial fun ends =>
        absurd ends (last (overlooked _ List.mem_cons_self))
      exact Unopened.append (a := [34]) trivial closed fun ends => nomatch ends
  opens := by
    intro ahead later bs form
    cases ahead <;> simp at form

theorem chars (bs : List UInt8) : Spells ("c" ++ quoteBytes bs) [.chars bs] where
  quiet overlooked := (overlooked _ List.mem_cons_self).elim
  opens := by
    intro ahead later cs form _
    cases ahead with
    | nil =>
      obtain ⟨same, rfl⟩ := List.cons.inj form
      cases same
      exact ⟨[], [], ⟨by simp, trivial⟩, bytes_array bs⟩
    | cons => simp at form

end Spells

section Names

variable {sigil : String}

theorem sigil_byte (mark : sigil = "%" ∨ sigil = "@") : ∃ b : UInt8, bytes sigil = [b] ∧ b ≠ 34 ∧ b ≠ 99 := by
  rcases mark with rfl | rfl
  · exact ⟨37, rfl, by decide⟩
  · exact ⟨64, rfl, by decide⟩

theorem bytes_of_isDigits {s : String} (digits : isDigits s = true) {b : UInt8} (listed : b ∈ bytes s) : 48 ≤ b ∧ b ≤ 57 := by
  obtain ⟨c, present, byte⟩ := List.mem_flatMap.mp listed
  have all : ∀ c ∈ s.toList, c.isDigit = true := by
    have parts := (Bool.and_eq_true_iff.mp digits).2
    simpa using parts
  have digit := all c present
  simp only [Char.isDigit, Bool.and_eq_true, decide_eq_true_eq, UInt32.le_iff_toNat_le] at digit
  have low : 48 ≤ c.toNat := digit.1
  have high : c.toNat ≤ 57 := digit.2
  rw [charBytes_ascii (by omega), List.mem_singleton] at byte
  rw [byte, UInt8.le_iff_toNat_le, UInt8.le_iff_toNat_le]
  simp
  omega

theorem spells_encodeName (mark : sigil = "%" ∨ sigil = "@") (s : String) : Spells (sigil ++ encodeName s) [.name s] := by
  obtain ⟨b, byte, marked⟩ := sigil_byte mark
  refine Spells.name_of marked ?_
  unfold encodeName
  dsimp only
  split
  · next plain =>
    left
    rw [bytes_append, byte, List.singleton_append, List.mem_cons, not_or]
    refine ⟨fun same => marked.1 same.symm, fun listed => ?_⟩
    exact absurd (List.all_eq_true.mp plain 34 listed) (by decide)
  · next quoted =>
    refine .inr ⟨escape (bytes s), escape_notMem _, ?_, fun overlooked ends => ?_⟩
    · rw [bytes_append, bytes_quoteBytes, byte]
      rfl
    · exact overlooked.resolve_left quoted (escape_getLast? ends)

theorem spells_sigilName (mark : sigil = "%" ∨ sigil = "@") (s : String) : Spells (sigilName sigil s) [.name s] := by
  unfold sigilName
  split
  · next numeric =>
    have digits : isDigits s = true := (Bool.and_eq_true_iff.mp numeric).1
    obtain ⟨b, byte, marked⟩ := sigil_byte mark
    have outside : ∀ d : UInt8, ¬ (48 ≤ d ∧ d ≤ 57) → d ∉ bytes s := fun d other listed => other (bytes_of_isDigits digits listed)
    refine Spells.name_of marked (.inr ⟨bytes s, outside 34 (by decide), ?_, fun _ ends => ?_⟩)
    · rw [bytes_append, bytes_append, bytes_append, byte]
      rfl
    · exact outside 99 (by decide) (List.mem_of_getLast? ends)
  · exact spells_encodeName mark s

def Ident.spelled : Ident → List Spelling
  | named s => [.name s]
  | number _ => []

theorem spells_symbolText (i : Ident) : Spells i.symbolText i.spelled := by
  cases i with
  | named s => exact spells_sigilName (.inr rfl) s
  | number n => exact .of_unquoted (Unquoted.append (by decide) (unquoted_nat n))

theorem spells_identText (i : Ident) : Spells i.text i.spelled := by
  cases i with
  | named s => exact spells_sigilName (.inl rfl) s
  | number n => exact .of_unquoted (Unquoted.append (by decide) (unquoted_nat n))

end Names

namespace Spells

variable {s t a b : String} {xs ys : List Spelling}

theorem between (front : Unquoted a) (spells : Spells s xs) (back : Unquoted b) : Spells (a ++ s ++ b) xs := by
  simpa using ((of_unquoted front).append spells).append (of_unquoted back)

theorem behind (front : Unquoted a) (spells : Spells s xs) : Spells (a ++ s) xs := by
  simpa using (of_unquoted front).append spells

theorem ahead (spells : Spells s xs) (back : Unquoted b) : Spells (s ++ b) xs := by
  simpa using spells.append (of_unquoted back)

theorem commaSep {parts : List String} {pieces : List (List Spelling)} (each : List.Forall₂ Spells parts pieces) :
    Spells (commaSep parts) pieces.flatten := by
  induction each with
  | nil => exact of_unquoted (by decide)
  | @cons s xs parts pieces first rest ih =>
    cases rest with
    | nil => simpa [Ir.commaSep] using first
    | @cons t ys parts pieces second rest =>
      rw [Ir.commaSep, String.intercalate_cons_of_ne_nil (List.cons_ne_nil t parts), List.flatten_cons]
      exact (first.ahead (by decide)).append ih

end Spells

theorem spells_structText {parts : List String} {pieces : List (List Spelling)} (each : List.Forall₂ Spells parts pieces)
    (packed : Bool) : Spells (Ty.structText packed parts) pieces.flatten := by
  have body : Spells (if parts.isEmpty then "\x7b\x7d" else "\x7b " ++ ", ".intercalate parts ++ " \x7d") pieces.flatten := by
    split
    · next none =>
      obtain rfl := List.isEmpty_iff.mp none
      cases each
      exact .of_unquoted (by decide)
    · exact Spells.between (by decide) (Spells.commaSep each) (by decide)
  unfold Ty.structText
  dsimp only
  split
  · exact Spells.between (by decide) body (by decide)
  · exact body

namespace Ty

mutual
def spelled : Ty → List Spelling
  | pointer elem _ => spelled elem
  | array _ elem => spelled elem
  | vector _ _ elem => spelled elem
  | struct _ fields => (spelledEach fields).flatten
  | func result params _ => spelled result ++ (spelledEach params).flatten
  | named name => [.name name]
  | synonym name _ => [.name name]
  | _ => []

def spelledEach : List Ty → List (List Spelling)
  | [] => []
  | t :: ts => spelled t :: spelledEach ts
end

mutual
theorem spells_text : ∀ t : Ty, Spells t.text t.spelled
  | pointer elem space => by
    have rest : Unquoted (spaceText space ++ "*") :=
      Unquoted.append (unquoted_ite (by decide) (((by decide : Unquoted _).append (unquoted_nat space)).append (by decide))) (by decide)
    simpa only [text, spelled, String.append_assoc] using (spells_text elem).ahead rest
  | array length elem => by
    have front : Unquoted ("[" ++ toString length ++ " x ") :=
      ((by decide : Unquoted _).append (unquoted_uint64 length)).append (by decide)
    simpa only [text, spelled] using Spells.between front (spells_text elem) (by decide)
  | vector scalable length elem => by
    have front : Unquoted ("<" ++ (if scalable then "vscale x " else "") ++ toString length ++ " x ") :=
      (((by decide : Unquoted _).append (unquoted_ite (by decide) (by decide))).append (unquoted_uint64 length)).append (by decide)
    simpa only [text, spelled] using Spells.between front (spells_text elem) (by decide)
  | struct packed fields => by
    simpa only [text, spelled] using spells_structText (spells_texts fields) packed
  | func result params variadic => by
    have all : Spells (paramsText (texts params) variadic) (spelledEach params).flatten := by
      cases variadic with
      | false => simpa [paramsText, commaSep] using Spells.commaSep (spells_texts params)
      | true =>
        have dots : List.Forall₂ Spells ["..."] [[]] := .cons (.of_unquoted (by decide)) .nil
        simpa [paramsText, commaSep] using Spells.commaSep (List.rel_append (spells_texts params) dots)
    simpa only [text, spelled] using ((((spells_text result).ahead (by decide)).append all).ahead (by decide))
  | named name => by simpa only [text, typeNameText, spelled] using spells_encodeName (.inl rfl) name
  | synonym name _ => by simpa only [text, typeNameText, spelled] using spells_encodeName (.inl rfl) name
  | int bits => by
    simpa only [text, spelled] using Spells.of_unquoted ((by decide : Unquoted "i").append (unquoted_uint64 bits))
  | float kind => by
    simpa only [text, spelled] using Spells.of_unquoted (s := kind.text) (by cases kind <;> decide)
  | void => by simpa only [text, spelled] using Spells.of_unquoted (s := "void") (by decide)
  | label => by simpa only [text, spelled] using Spells.of_unquoted (s := "label") (by decide)
  | token => by simpa only [text, spelled] using Spells.of_unquoted (s := "token") (by decide)
  | metadata => by simpa only [text, spelled] using Spells.of_unquoted (s := "metadata") (by decide)
  | mmx => by simpa only [text, spelled] using Spells.of_unquoted (s := "x86_mmx") (by decide)
  | unset => by simpa only [text, spelled] using Spells.of_unquoted (s := "%!s(<nil>)") (by decide)

theorem spells_texts : ∀ ts : List Ty, List.Forall₂ Spells (texts ts) (spelledEach ts)
  | [] => by simpa only [texts, spelledEach] using .nil
  | t :: ts => by simpa only [texts, spelledEach] using .cons (spells_text t) (spells_texts ts)
end

end Ty

namespace Constant

variable {names : Ir.Names} {c : Constant}

def ahead (names : Ir.Names) : Constant → List Spelling
  | chars bs => [.chars bs]
  | symbol id _ => (names.symbol id).spelled
  | reached way id _ => .word way :: (names.symbol id).spelled
  | blockAddress fn _ b => (names.symbol fn).spelled ++ (names.block fn b).spelled
  | gep _ elem _ _ _ => elem.spelled
  | binary _ flags _ _ => flags.map .word
  | compare _ pred _ _ _ => [.word pred]
  | _ => []

def behind : Constant → List Spelling
  | cast _ _ target => target.spelled
  | _ => []

/-- What a constant spells, without its type. An index that has to stay in range is written as what it is. -/
def spelled (names : Ir.Names) (c : Constant) : List Spelling :=
  match c with
  | inRange index => spelled names index
  | c => c.ahead names ++ c.children.attach.flatMap (fun child => child.1.type.spelled ++ spelled names child.1) ++ c.behind
termination_by sizeOf c
decreasing_by
  · exact sizeOf_child (List.mem_singleton.mpr rfl)
  · exact sizeOf_child child.2

def rendered (names : Ir.Names) (c : Constant) : List Spelling := c.type.spelled ++ c.spelled names

theorem spelled_eq (other : ∀ index, c ≠ inRange index) :
    c.spelled names = c.ahead names ++ c.children.flatMap (rendered names) ++ c.behind := by
  have each : c.children.attach.flatMap (fun child => child.1.type.spelled ++ spelled names child.1) =
      c.children.flatMap (rendered names) := by
    rw [List.flatMap_def, List.flatMap_def, ← List.attach_map_val (f := rendered names)]
    rfl
  rw [spelled]
  · rw [each]
  · exact fun index same => other index same

theorem spells_render_of (spells : Spells (c.ident names) (c.spelled names)) : Spells (c.render names) (c.rendered names) := by
  have opening : Unquoted c.opening := by
    unfold Constant.opening
    split <;> decide
  have blank : Unquoted " " := by decide
  rw [render, rendered]
  exact ((Spells.behind opening c.type.spells_text).ahead blank).append spells

theorem spells_spaced (words : List String) : Spells (spaced words) (words.map .word) := by
  induction words with
  | nil => exact .of_unquoted (by decide)
  | cons w words ih =>
    have joined : spaced (w :: words) = " " ++ w ++ spaced words := by simp [spaced, String.join_cons]
    rw [joined]
    exact (Spells.behind (by decide) (.word w)).append ih

/-- A constant's text spells what the constant does. -/
theorem spells_ident (names : Ir.Names) (c : Constant) : Spells (c.ident names) (c.spelled names) := by
  have inner : ∀ child ∈ c.children, Spells (child.ident names) (child.spelled names) :=
    fun child listed => spells_ident names child
  have shown : ∀ child ∈ c.children, Spells (child.render names) (child.rendered names) :=
    fun child listed => spells_render_of (inner child listed)
  have each : ∀ cs ⊆ c.children, List.Forall₂ Spells (renders names cs) (cs.map (rendered names)) := by
    intro cs inside
    rw [renders_eq, List.forall₂_map_left_iff, List.forall₂_map_right_iff, List.forall₂_same]
    exact fun child listed => shown child (inside listed)
  have whole : Spells (commaSep (renders names c.children)) (c.children.flatMap (rendered names)) := by
    rw [List.flatMap_def]
    exact Spells.commaSep (each c.children (List.Subset.refl _))
  have numbers : ∀ is : List Nat, List.Forall₂ Spells (is.map toString) (is.map fun _ => []) := by
    intro is
    rw [List.forall₂_map_left_iff, List.forall₂_map_right_iff, List.forall₂_same]
    exact fun i _ => .of_unquoted (unquoted_nat i)
  cases c with
  | inRange index =>
    rw [ident, spelled]
    exact inner index (List.mem_singleton.mpr rfl)
  | int t v =>
    rw [spelled_eq (by simp)]
    refine .of_unquoted ?_
    rw [ident]
    split
    · exact unquoted_ite (by decide) (by decide)
    · exact unquoted_integerText v
  | float t v =>
    rw [spelled_eq (by simp)]
    refine .of_unquoted ?_
    rw [ident]
    split <;> exact FloatLiteral.unquoted_text _ v
  | null | undef | poison | zero | none =>
    rw [spelled_eq (by simp)]
    exact .of_unquoted (by rw [ident]; decide)
  | truth b =>
    rw [spelled_eq (by simp)]
    exact .of_unquoted (by rw [ident]; exact unquoted_ite (by decide) (by decide))
  | chars bs =>
    rw [spelled_eq (by simp), ident]
    exact Spells.chars bs
  | array t es =>
    rw [spelled_eq (by simp), ident]
    simpa [ahead, behind, children] using Spells.between (a := "[") (b := "]") (by decide) whole (by decide)
  | vector t es =>
    rw [spelled_eq (by simp), ident]
    simpa [ahead, behind, children] using Spells.between (a := "<") (b := ">") (by decide) whole (by decide)
  | struct t packed fs =>
    rw [spelled_eq (by simp), ident]
    simpa [ahead, behind, children, List.flatMap_def] using spells_structText (each fs (List.Subset.refl _)) packed
  | symbol id t =>
    rw [spelled_eq (by simp), ident]
    simpa [ahead, behind, children] using spells_symbolText (names.symbol id)
  | reached way id t =>
    rw [spelled_eq (by simp), ident]
    simpa [ahead, behind, children] using ((Spells.word way).ahead (by decide)).append (spells_symbolText (names.symbol id))
  | blockAddress fn t b =>
    rw [spelled_eq (by simp), ident]
    have front := Spells.between (a := "blockaddress(") (b := ", ") (by decide) (spells_symbolText (names.symbol fn)) (by decide)
    simpa [ahead, behind, children] using (front.append (spells_identText (names.block fn b))).ahead (by decide)
  | cast op source target =>
    have word : Unquoted (op.text ++ " (") := by cases op <;> decide
    have front := (Spells.behind word (shown source (by simp [children]))).ahead (b := " to ") (by decide)
    rw [spelled_eq (by simp), ident]
    simpa [ahead, behind, children, String.append_assoc] using (front.append target.spells_text).ahead (b := ")") (by decide)
  | gep inbounds elem source indices t =>
    have word : Unquoted ("getelementptr " ++ (if inbounds then "inbounds " else "") ++ "(") := by cases inbounds <;> decide
    have front := (Spells.behind word elem.spells_text).ahead (b := ", ") (by decide)
    rw [spelled_eq (by simp), ident]
    simpa [ahead, behind, children, renders, String.append_assoc] using (front.append whole).ahead (b := ")") (by decide)
  | binary op flags x y =>
    have word : Unquoted op.text := by cases op <;> decide
    have front := (Spells.behind word (spells_spaced flags)).ahead (b := " (") (by decide)
    rw [spelled_eq (by simp), ident]
    simpa [ahead, behind, children, renders] using (front.append whole).ahead (b := ")") (by decide)
  | compare floating pred x y t =>
    have word : Unquoted (if floating then "fcmp " else "icmp ") := unquoted_ite (by decide) (by decide)
    have front := (Spells.behind word (.word pred)).ahead (b := " (") (by decide)
    rw [spelled_eq (by simp), ident]
    simpa [ahead, behind, children, renders] using (front.append whole).ahead (b := ")") (by decide)
  | select cond x y =>
    rw [spelled_eq (by simp), ident]
    simpa [ahead, behind, children, renders] using Spells.between (a := "select (") (b := ")") (by decide) whole (by decide)
  | fneg x =>
    rw [spelled_eq (by simp), ident]
    simpa [ahead, behind, children] using
      Spells.between (a := "fneg (") (b := ")") (by decide) (shown x (by simp [children])) (by decide)
  | extractElement x i t =>
    rw [spelled_eq (by simp), ident]
    simpa [ahead, behind, children, renders] using Spells.between (a := "extractelement (") (b := ")") (by decide) whole (by decide)
  | insertElement x e i =>
    rw [spelled_eq (by simp), ident]
    simpa [ahead, behind, children, renders] using Spells.between (a := "insertelement (") (b := ")") (by decide) whole (by decide)
  | shuffleVector x y m t =>
    rw [spelled_eq (by simp), ident]
    simpa [ahead, behind, children, renders] using Spells.between (a := "shufflevector (") (b := ")") (by decide) whole (by decide)
  | extractValue x is t =>
    have list := Spells.commaSep (List.rel_append (each [x] (by simp [children])) (numbers is))
    rw [spelled_eq (by simp), ident]
    simpa [ahead, behind, children, renders] using Spells.between (a := "extractvalue (") (b := ")") (by decide) list (by decide)
  | insertValue x e is =>
    have list := Spells.commaSep (List.rel_append (each [x, e] (by simp [children])) (numbers is))
    rw [spelled_eq (by simp), ident]
    simpa [ahead, behind, children, renders] using Spells.between (a := "insertvalue (") (b := ")") (by decide) list (by decide)
termination_by sizeOf c
decreasing_by exact sizeOf_child listed

end Constant

end CallFusion.Ir
