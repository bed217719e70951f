import CallFusion.Proofs.Json.Strings
import CallFusion.Proofs.Text.Digits

/-!
Values of JSON that are stored and read back. A value of nulls, truth values, whole numbers and valid texts, however deep
its lists and objects are, reads back as it was.
-/
namespace CallFusion.Json

def chars (j : Json) : List Char := marked j.compact.toList

/-- What may stand behind a value. -/
inductive Ends : List Char → Prop
  | nil : Ends []
  | comma (rest : List Char) : Ends (',' :: rest)
  | bracket (rest : List Char) : Ends (']' :: rest)
  | brace (rest : List Char) : Ends ('\x7d' :: rest)

theorem skip_cons {c : Char} (visible : isBlank c = false) (cs : List Char) : skip (c :: cs) = c :: cs := by
  simp [skip, visible]

/-! ### Numbers -/

theorem digitsOf_append {ds rest : List Char} (digits : ∀ c ∈ ds, c.isDigit = true) (ends : Ends rest) :
    digitsOf (ds ++ rest) = (ds, rest) := by
  have front : rest.takeWhile Char.isDigit = [] := by cases ends <;> rfl
  have back : rest.dropWhile Char.isDigit = rest := by cases ends <;> rfl
  rw [digitsOf, List.takeWhile_append_of_pos digits, List.dropWhile_append_of_pos digits, front, back, List.append_nil]

theorem toDigits_head {n : Nat} (positive : n ≠ 0) : ∃ d ds, Nat.toDigits 10 n = d :: ds ∧ d ≠ '0' := by
  induction n using Nat.strongRecOn with
  | _ n ih =>
    rw [Nat.toDigits_eq_if (by decide)]
    split_ifs with small
    · refine ⟨n.digitChar, [], rfl, ?_⟩
      interval_cases n <;> simp_all
    · obtain ⟨d, ds, same, other⟩ := ih (n / 10) (by omega) (by omega)
      exact ⟨d, ds ++ [(n % 10).digitChar], by rw [same]; rfl, other⟩

theorem number?_digits (n : Nat) {sign : List Char} (signed : sign = [] ∨ sign = ['-']) {rest : List Char} (ends : Ends rest) :
    number? (sign ++ (Nat.toDigits 10 n ++ rest)) = some (String.ofList (sign ++ Nat.toDigits 10 n), rest) := by
  by_cases zero : n = 0
  · subst zero
    rcases signed with rfl | rfl <;> cases ends <;> rfl
  · have digits : ∀ c ∈ Nat.toDigits 10 n, c.isDigit = true := fun c member =>
      Nat.isDigit_of_mem_toDigits (by decide) (by decide) member
    have read := digitsOf_append digits ends
    obtain ⟨d, ds, same, other⟩ := toDigits_head zero
    have plain : d ≠ '-' := by
      rintro rfl
      have := digits '-' (same ▸ List.mem_cons_self)
      contradiction
    rw [same, List.cons_append] at read
    rw [same, List.cons_append]
    generalize ds ++ rest = cs at read
    rcases signed with rfl | rfl
    · rw [List.nil_append, number?]
      · dsimp only [bind, Option.bind]
        cases ends <;> simp [read]
      · exact fun r starts => plain (List.cons.inj starts).1
      · exact fun r starts => other (List.cons.inj starts).1
    · rw [List.singleton_append, number?]
      · dsimp only [bind, Option.bind]
        cases ends <;> simp [read]
      · exact fun r starts => other (List.cons.inj starts).1

theorem toString_int (n : Int) :
    ∃ sign, (sign = [] ∨ sign = ['-']) ∧ (toString n).toList = sign ++ Nat.toDigits 10 n.natAbs := by
  rw [Int.toString_eq_repr, Int.repr_eq_if]
  split_ifs with positive
  · have same : n.toNat = n.natAbs := by omega
    exact ⟨[], .inl rfl, by rw [same, Nat.repr_eq_ofList_toDigits, String.toList_ofList, List.nil_append]⟩
  · have same : (-n).toNat = n.natAbs := by omega
    exact ⟨['-'], .inr rfl, by rw [same, Nat.repr_eq_ofList_toDigits, String.toList_append, String.toList_ofList,
      String.toList_ofList]⟩

/-! ### Lists -/

def closed (close : Char) : List (List Char) → List Char
  | [] => [close]
  | [p] => p ++ [close]
  | p :: q :: ps => p ++ ',' :: closed close (q :: ps)

theorem closed_cons (close : Char) (p : List Char) (ps : List (List Char)) : ∃ tail, closed close (p :: ps) = p ++ tail := by
  cases ps with
  | nil => exact ⟨[close], rfl⟩
  | cons q ps => exact ⟨',' :: closed close (q :: ps), rfl⟩

theorem marked_intercalate (close : Char) (ss : List String) :
    marked (",".intercalate ss).toList ++ [close] = closed close (ss.map fun s => marked s.toList) := by
  induction ss with
  | nil => rfl
  | cons s ss ih =>
    cases ss with
    | nil => simp [closed]
    | cons t ts =>
      have comma : marked [','] = [','] := by decide
      rw [String.intercalate_cons_of_ne_nil (List.cons_ne_nil t ts), String.toList_append, String.toList_append, marked_append,
        marked_append, List.append_assoc, ih]
      change marked s.toList ++ marked [','] ++ _ = marked s.toList ++ ',' :: _
      rw [comma, List.append_assoc]
      rfl

@[simp] theorem chars_str (s : String) : chars (str s) = '"' :: (body s ++ ['"']) := by
  rw [chars, compact, marked_quote]

theorem compacts_eq (items : List Json) : compacts items = items.map compact := by
  induction items with
  | nil => rfl
  | cons j items ih => rw [compacts, ih, List.map_cons]

theorem compactMembers_eq (members : List (String × Json)) :
    compactMembers members = members.map fun m => quote m.1 ++ ":" ++ compact m.2 := by
  induction members with
  | nil => rfl
  | cons m members ih => rw [compactMembers, ih, List.map_cons]

theorem chars_arr (items : List Json) : chars (arr items) = '[' :: closed ']' (items.map chars) := by
  have marks : marked ['['] = ['['] ∧ marked [']'] = [']'] := by decide
  have inner := marked_intercalate ']' (compacts items)
  rw [compacts_eq, List.map_map] at inner
  rw [chars, compact, String.toList_append, String.toList_append, marked_append, marked_append, compacts_eq]
  change marked ['['] ++ _ ++ marked [']'] = _
  rw [marks.1, marks.2, List.append_assoc, inner]
  rfl

def memberChars (m : String × Json) : List Char := '"' :: (body m.1 ++ '"' :: ':' :: chars m.2)

theorem chars_obj (members : List (String × Json)) :
    chars (obj members) = '\x7b' :: closed '\x7d' (members.map memberChars) := by
  have marks : marked ['\x7b'] = ['\x7b'] ∧ marked ['\x7d'] = ['\x7d'] ∧ marked [':'] = [':'] := by decide
  have member : ∀ m : String × Json, marked (quote m.1 ++ ":" ++ compact m.2).toList = memberChars m := by
    intro m
    rw [String.toList_append, String.toList_append, marked_append, marked_append, marked_quote]
    change '"' :: (body m.1 ++ ['"']) ++ marked [':'] ++ chars m.2 = _
    simp [marks, memberChars]
  have inner := marked_intercalate '\x7d' (compactMembers members)
  rw [compactMembers_eq, List.map_map] at inner
  rw [chars, compact, String.toList_append, String.toList_append, marked_append, marked_append, compactMembers_eq]
  change marked ['\x7b'] ++ _ ++ marked ['\x7d'] = _
  rw [marks.1, marks.2.1, List.append_assoc, inner]
  simp only [Function.comp_def, member]
  rfl

/-! ### Values -/

/-- A value that can be told from its text. Numbers keep their text, so only those count that are whole. -/
inductive Legible : Json → Prop
  | null : Legible .null
  | bool (b : Bool) : Legible (.bool b)
  | int (n : Int) : Legible (.ofInt n)
  | str {s : String} (valid : Text.Valid s) : Legible (.str s)
  | arr {items : List Json} (each : ∀ j ∈ items, Legible j) : Legible (.arr items)
  | obj {members : List (String × Json)} (keys : ∀ m ∈ members, Text.Valid m.1) (each : ∀ m ∈ members, Legible m.2) :
      Legible (.obj members)

/-- A value is read from a text that begins with it. -/
def ReadsBack (j : Json) : Prop :=
  ∀ fuel rest, (chars j).length ≤ fuel → Ends rest → valueAt fuel (chars j ++ rest) = some (j, rest)

theorem readsBack_null : ReadsBack null := by
  intro fuel rest enough ends
  have text : chars null = ['n', 'u', 'l', 'l'] := by decide
  rw [text] at enough ⊢
  obtain ⟨left, rfl, -⟩ := exists_step enough
  simp [valueAt, skip, isBlank, stripWord?]

theorem readsBack_bool (b : Bool) : ReadsBack (bool b) := by
  intro fuel rest enough ends
  cases b with
  | false =>
    have text : chars (bool false) = ['f', 'a', 'l', 's', 'e'] := by decide
    rw [text] at enough ⊢
    obtain ⟨left, rfl, -⟩ := exists_step enough
    simp [valueAt, skip, isBlank, stripWord?]
  | true =>
    have text : chars (bool true) = ['t', 'r', 'u', 'e'] := by decide
    rw [text] at enough ⊢
    obtain ⟨left, rfl, -⟩ := exists_step enough
    simp [valueAt, skip, isBlank, stripWord?]

theorem readsBack_str {s : String} (valid : Text.Valid s) : ReadsBack (str s) := by
  intro fuel rest enough ends
  rw [chars_str] at enough ⊢
  obtain ⟨left, rfl, within⟩ := exists_step enough
  rw [List.length_append, List.length_singleton] at within
  have read := stringTail_body valid within rest
  have visible : isBlank '"' = false := by decide
  rw [List.cons_append, List.append_assoc, valueAt, skip_cons visible]
  simp [read]

theorem ne_of_number {c : Char} (first : c.isDigit = true ∨ c = '-') {d : Char} (digit : d.isDigit = false) (sign : d ≠ '-') :
    c ≠ d := by
  rintro rfl
  rcases first with here | here
  · rw [digit] at here
    contradiction
  · exact sign here

theorem isBlank_of_number {c : Char} (first : c.isDigit = true ∨ c = '-') : isBlank c = false := by
  have blanks : ∀ d ∈ [' ', '\t', '\n', '\r'], c ≠ d := by
    intro d member
    simp only [List.mem_cons, List.not_mem_nil, or_false] at member
    rcases member with rfl | rfl | rfl | rfl <;> exact ne_of_number first (by decide) (by decide)
  simpa [isBlank, and_assoc] using blanks

theorem valueAt_number {c : Char} (first : c.isDigit = true ∨ c = '-') (cs : List Char) (fuel : Nat) :
    valueAt (fuel + 1) (c :: cs) = (number? (c :: cs)).map fun (t, after) => (.num t, after) := by
  rw [valueAt, skip_cons (isBlank_of_number first)]
  split
  next heq => exact absurd (List.cons.inj heq).1 (ne_of_number first (by decide) (by decide))
  next heq => exact absurd (List.cons.inj heq).1 (ne_of_number first (by decide) (by decide))
  next heq => exact absurd (List.cons.inj heq).1 (ne_of_number first (by decide) (by decide))
  next heq => exact absurd (List.cons.inj heq).1 (ne_of_number first (by decide) (by decide))
  next heq => exact absurd (List.cons.inj heq).1 (ne_of_number first (by decide) (by decide))
  next heq => exact absurd (List.cons.inj heq).1 (ne_of_number first (by decide) (by decide))
  next => rfl

theorem chars_ofInt (n : Int) : ∃ c cs, chars (ofInt n) = c :: cs ∧ (c.isDigit = true ∨ c = '-') ∧
    ∀ rest, Ends rest → number? (c :: cs ++ rest) = some (toString n, rest) := by
  obtain ⟨sign, signed, text⟩ := toString_int n
  have plain : ∀ c ∈ (toString n).toList, c.isDigit = true ∨ c = '-' := by
    intro c member
    rw [text] at member
    rcases List.mem_append.mp member with inside | inside
    · rcases signed with rfl | rfl
      · contradiction
      · exact .inr (List.mem_singleton.mp inside)
    · exact .inl (Nat.isDigit_of_mem_toDigits (by decide) (by decide) inside)
  have written : chars (ofInt n) = (toString n).toList := by
    refine marked_eq fun c member => ?_
    have first := plain c member
    have markups : ∀ d ∈ ['<', '>', '&'], c ≠ d := by
      intro d member
      simp only [List.mem_cons, List.not_mem_nil, or_false] at member
      rcases member with rfl | rfl | rfl <;> exact ne_of_number first (by decide) (by decide)
    simpa [isMarkup, and_assoc] using markups
  have filled : (toString n).toList ≠ [] := by
    rw [text]
    exact List.append_ne_nil_of_right_ne_nil _ Nat.toDigits_ne_nil
  obtain ⟨c, cs, all⟩ := List.exists_cons_of_ne_nil filled
  refine ⟨c, cs, written.trans all, plain c (all ▸ List.mem_cons_self), fun rest ends => ?_⟩
  have read := number?_digits n.natAbs signed ends
  rw [← List.append_assoc, ← text, String.ofList_toList, all] at read
  exact read

theorem readsBack_int (n : Int) : ReadsBack (ofInt n) := by
  intro fuel rest enough ends
  obtain ⟨c, cs, text, first, read⟩ := chars_ofInt n
  rw [text] at enough ⊢
  obtain ⟨left, rfl, -⟩ := exists_step enough
  rw [List.cons_append, valueAt_number first, ← List.cons_append, read rest ends]
  rfl

theorem Legible.starts {j : Json} (legible : Legible j) : ∃ c cs, chars j = c :: cs ∧ isBlank c = false ∧ c ≠ ']' := by
  cases legible with
  | null => exact ⟨'n', _, rfl, by decide, by decide⟩
  | bool b =>
    cases b with
    | false => exact ⟨'f', _, rfl, by decide, by decide⟩
    | true => exact ⟨'t', _, rfl, by decide, by decide⟩
  | int n =>
    obtain ⟨c, cs, text, first, -⟩ := chars_ofInt n
    exact ⟨c, cs, text, isBlank_of_number first, ne_of_number first (by decide) (by decide)⟩
  | str valid => exact ⟨'"', _, chars_str _, by decide, by decide⟩
  | arr each => exact ⟨'[', _, chars_arr _, by decide, by decide⟩
  | obj keys each => exact ⟨'\x7b', _, chars_obj _, by decide, by decide⟩

theorem itemsAt_closed {items : List Json} (filled : items ≠ []) (each : ∀ j ∈ items, ReadsBack j) {fuel : Nat}
    (enough : (closed ']' (items.map chars)).length ≤ fuel) (rest : List Char) :
    itemsAt fuel (closed ']' (items.map chars) ++ rest) = some (items, rest) := by
  induction items generalizing fuel with
  | nil => contradiction
  | cons j js ih =>
    have first := each j List.mem_cons_self
    cases js with
    | nil =>
      simp only [List.map_cons, List.map_nil, closed, List.length_append, List.length_singleton] at enough ⊢
      obtain ⟨left, rfl⟩ : ∃ left, fuel = left + 1 := ⟨fuel - 1, by omega⟩
      have read := first left (']' :: rest) (by omega) (.bracket rest)
      rw [List.append_assoc, List.singleton_append, itemsAt, read]
      simp [skip, isBlank]
    | cons k ks =>
      simp only [List.map_cons, closed, List.length_append, List.length_cons] at enough ⊢
      obtain ⟨left, rfl⟩ : ∃ left, fuel = left + 1 := ⟨fuel - 1, by omega⟩
      have read := first left (',' :: (closed ']' (chars k :: ks.map chars) ++ rest)) (by omega) (.comma _)
      have others := ih (List.cons_ne_nil k ks) (fun i member => each i (List.mem_cons_of_mem _ member))
        (show (closed ']' ((k :: ks).map chars)).length ≤ left by rw [List.map_cons]; omega)
      rw [List.map_cons] at others
      rw [List.append_assoc, List.cons_append, itemsAt, read]
      simp [skip, isBlank, others]

theorem readsBack_arr {items : List Json} (legible : ∀ j ∈ items, Legible j) (each : ∀ j ∈ items, ReadsBack j) :
    ReadsBack (arr items) := by
  intro fuel rest enough ends
  rw [chars_arr] at enough ⊢
  obtain ⟨left, rfl, within⟩ := exists_step enough
  rw [List.cons_append, valueAt, skip_cons (by decide)]
  cases items with
  | nil => simp [closed, skip, isBlank]
  | cons j js =>
    have read := itemsAt_closed (List.cons_ne_nil j js) each within rest
    obtain ⟨c, cs, text, visible, other⟩ := (legible j List.mem_cons_self).starts
    obtain ⟨tail, same⟩ := closed_cons ']' (chars j) (js.map chars)
    rw [List.map_cons, same, text, List.append_assoc, List.cons_append] at read ⊢
    simp [skip_cons visible, other, read]

theorem membersAt_member {name : String} {j : Json} (key : Text.Valid name) (value : ReadsBack j) (fuel : Nat)
    (enough : (memberChars (name, j)).length ≤ fuel) :
    (∀ rest, membersAt (fuel + 1) (memberChars (name, j) ++ ',' :: rest) =
        (membersAt fuel rest).map fun read => ((name, j) :: read.1, read.2)) ∧
      ∀ rest, membersAt (fuel + 1) (memberChars (name, j) ++ '\x7d' :: rest) = some ([(name, j)], rest) := by
  simp only [memberChars, List.length_cons, List.length_append] at enough
  have readKey := fun more => stringTail_body key (show (body name).length < fuel by omega) (':' :: (chars j ++ more))
  have readValue := fun more => value fuel more (by omega)
  have visible : isBlank '"' = false ∧ isBlank ':' = false ∧ isBlank ',' = false ∧ isBlank '\x7d' = false := by decide
  obtain ⟨quote, colon, comma, brace⟩ := visible
  constructor
  · intro rest
    simp only [memberChars, List.cons_append, List.append_assoc]
    rw [membersAt, skip_cons quote]
    simp [readKey, skip_cons colon, readValue _ (.comma rest), skip_cons comma]
  · intro rest
    simp only [memberChars, List.cons_append, List.append_assoc]
    rw [membersAt, skip_cons quote]
    simp [readKey, skip_cons colon, readValue _ (.brace rest), skip_cons brace]

theorem membersAt_closed {members : List (String × Json)} (filled : members ≠ []) (keys : ∀ m ∈ members, Text.Valid m.1)
    (each : ∀ m ∈ members, ReadsBack m.2) {fuel : Nat}
    (enough : (closed '\x7d' (members.map memberChars)).length ≤ fuel) (rest : List Char) :
    membersAt fuel (closed '\x7d' (members.map memberChars) ++ rest) = some (members, rest) := by
  induction members generalizing fuel with
  | nil => contradiction
  | cons m ms ih =>
    obtain ⟨name, j⟩ := m
    have key : Text.Valid name := keys (name, j) List.mem_cons_self
    have value : ReadsBack j := each (name, j) List.mem_cons_self
    cases ms with
    | nil =>
      simp only [List.map_cons, List.map_nil, closed, List.length_append, List.length_singleton] at enough ⊢
      obtain ⟨left, rfl⟩ : ∃ left, fuel = left + 1 := ⟨fuel - 1, by omega⟩
      rw [List.append_assoc, List.singleton_append, (membersAt_member key value left (by omega)).2]
    | cons n ns =>
      simp only [List.map_cons, closed, List.length_append, List.length_cons] at enough ⊢
      obtain ⟨left, rfl⟩ : ∃ left, fuel = left + 1 := ⟨fuel - 1, by omega⟩
      have others := ih (List.cons_ne_nil n ns) (fun i member => keys i (List.mem_cons_of_mem _ member))
        (fun i member => each i (List.mem_cons_of_mem _ member))
        (show (closed '\x7d' ((n :: ns).map memberChars)).length ≤ left by rw [List.map_cons]; omega)
      rw [List.map_cons] at others
      rw [List.append_assoc, List.cons_append, (membersAt_member key value left (by omega)).1, others]
      rfl

theorem readsBack_obj {members : List (String × Json)} (keys : ∀ m ∈ members, Text.Valid m.1)
    (each : ∀ m ∈ members, ReadsBack m.2) : ReadsBack (obj members) := by
  intro fuel rest enough ends
  rw [chars_obj] at enough ⊢
  obtain ⟨left, rfl, within⟩ := exists_step enough
  rw [List.cons_append, valueAt, skip_cons (by decide)]
  cases members with
  | nil => simp [closed, skip, isBlank]
  | cons m ms =>
    have read := membersAt_closed (List.cons_ne_nil m ms) keys each within rest
    have visible : isBlank '"' = false := by decide
    obtain ⟨tail, same⟩ := closed_cons '\x7d' (memberChars m) (ms.map memberChars)
    rw [List.map_cons, same, memberChars] at read ⊢
    simp only [List.cons_append, List.append_assoc] at read ⊢
    simp [skip_cons visible, read]

/-- What was stored is read back whole. -/
theorem Legible.readsBack {j : Json} (legible : Legible j) : ReadsBack j := by
  induction legible with
  | null => exact readsBack_null
  | bool b => exact readsBack_bool b
  | int n => exact readsBack_int n
  | str valid => exact readsBack_str valid
  | arr each ih => exact readsBack_arr each ih
  | obj keys each ih => exact readsBack_obj keys ih

/-- The text of a stored value is that value and nothing else. -/
theorem parse?_stored {j : Json} (legible : Legible j) : parse? j.stored = some j := by
  have text : j.stored.toList = chars j := stored_toList j
  have read := legible.readsBack ((chars j).length + 2) [] (by omega) .nil
  rw [List.append_nil] at read
  have first : first? j.stored = some (j, []) := by
    rw [first?, text]
    exact read
  rw [parse?, first]
  rfl

end CallFusion.Json
