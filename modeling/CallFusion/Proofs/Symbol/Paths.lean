import CallFusion.Proofs.Merge.Suffixes

/-!
Paths that a hash closes. A symbol is made of identifiers and a hash, and its logical name is the path of the identifiers.
Taking a hash off a path that has none left takes off an identifier that is spelled like one.
-/

namespace CallFusion.Symbol

section Hashes

variable {front digits : List Char} {s : String}

theorem isHashDigit_ne {c : Char} (digit : isHashDigit c = true) : c ≠ ':' := by
  rintro rfl
  exact absurd digit (by decide)

theorem stripHash_marked (filled : digits ≠ []) (all : ∀ c ∈ digits, isHashDigit c = true) :
    stripHash (String.ofList (front ++ ':' :: ':' :: 'h' :: digits)) = String.ofList front := by
  have reversed : (front ++ ':' :: ':' :: 'h' :: digits).reverse = digits.reverse ++ 'h' :: ':' :: ':' :: front.reverse := by
    simp
  have taken : (digits.reverse ++ 'h' :: ':' :: ':' :: front.reverse).takeWhile isHashDigit = digits.reverse := by
    rw [List.takeWhile_append_of_pos fun c listed => all c (List.mem_reverse.mp listed),
      List.takeWhile_cons_of_neg (by decide), List.append_nil]
  rw [stripHash, String.toList_ofList, reversed]
  simp only [taken, List.drop_left]
  simp [filled]

theorem stripHash_unmarked (unmarked : ∀ front digits : List Char, digits ≠ [] → (∀ c ∈ digits, isHashDigit c = true) →
    s.toList ≠ front ++ ':' :: ':' :: 'h' :: digits) : stripHash s = s := by
  rw [stripHash]
  split
  · next rest found =>
    split
    · rfl
    · next filled =>
      have whole := List.prefix_iff_eq_append.mp (List.takeWhile_prefix isHashDigit (l := s.toList.reverse))
      have all : (s.toList.reverse.takeWhile isHashDigit).all isHashDigit = true := List.all_takeWhile
      generalize s.toList.reverse.takeWhile isHashDigit = digits at found filled whole all
      refine absurd ?_ (unmarked rest.reverse digits.reverse (by simpa using filled) fun c listed => ?_)
      · rw [← List.reverse_reverse s.toList, ← whole, found]
        simp
      · exact List.all_eq_true.mp all c (List.mem_reverse.mp listed)
  · rfl

end Hashes

/-- Letters, digits and underscores, the first of which is no digit. -/
structure IsIdentifier (id : String) : Prop where
  filled : id ≠ ""
  letters : ∀ c ∈ id.toList, c.isAlphanum = true ∨ c = '_'
  start : id.toList.head?.any Char.isDigit = false

instance (id : String) : Decidable (IsIdentifier id) :=
  decidable_of_iff (id ≠ "" ∧ id.toList.all (fun c => c.isAlphanum || c == '_') = true ∧
      id.toList.head?.any Char.isDigit = false)
    ⟨fun ⟨filled, letters, start⟩ => ⟨filled, by simpa using letters, start⟩,
      fun ⟨filled, letters, start⟩ => ⟨filled, by simpa using letters, start⟩⟩

def joined (ids : List String) : String := "::".intercalate ids

/-- Whether an identifier is spelled like a hash. -/
def hashLike (id : String) : Bool :=
  match id.toList with
  | 'h' :: digits => !digits.isEmpty && digits.all isHashDigit
  | _ => false

/-- The identifiers of a path that are left when the last of several is taken for a hash. -/
def unhashed (ids : List String) : List String :=
  if 1 < ids.length && ids.getLast?.any hashLike then ids.dropLast else ids

section Joined

variable {ids : List String} {id : String}

theorem hashLike_iff : hashLike id = true ↔ ∃ digits, digits ≠ [] ∧ (∀ c ∈ digits, isHashDigit c = true) ∧
    id.toList = 'h' :: digits := by
  unfold hashLike
  split
  · next digits form =>
    simp [form]
  · next other =>
    simp only [Bool.false_eq_true, false_iff]
    rintro ⟨digits, _, _, form⟩
    exact other digits form

theorem IsIdentifier.plain (identifier : IsIdentifier id) : ':' ∉ id.toList := by
  intro listed
  rcases identifier.letters ':' listed with letter | same
  · exact absurd letter (by decide)
  · exact absurd same (by decide)

theorem joined_concat (more : ids ≠ []) : joined (ids ++ [id]) = joined ids ++ "::" ++ id := by
  rw [joined, String.intercalate_append_of_ne_nil more (List.cons_ne_nil id [])]
  rfl

theorem joined_toList_concat (more : ids ≠ []) :
    (joined (ids ++ [id])).toList = (joined ids).toList ++ ':' :: ':' :: id.toList := by
  rw [joined_concat more]
  simp

theorem tail_unique {a b u v : List Char} (plain : ':' ∉ u) (also : ':' ∉ v) (same : a ++ ':' :: u = b ++ ':' :: v) : u = v := by
  have behind : ∀ {a u : List Char}, ':' ∉ u → (a ++ ':' :: u).reverse.takeWhile (· != ':') = u.reverse := by
    intro a u plain
    have apart : ∀ c ∈ u.reverse, (c != ':') = true := by
      intro c listed
      rw [bne_iff_ne]
      rintro rfl
      exact plain (List.mem_reverse.mp listed)
    rw [List.reverse_append, List.reverse_cons, List.append_assoc, List.takeWhile_append_of_pos apart]
    simp
  rw [← List.reverse_inj, ← behind plain, ← behind also, same]

/-- A path loses its last identifier if that is spelled like a hash. -/
theorem stripHash_joined (identifiers : ∀ id ∈ ids, IsIdentifier id) : stripHash (joined ids) = joined (unhashed ids) := by
  rcases List.eq_nil_or_concat' ids with rfl | ⟨front, last, rfl⟩
  · exact stripHash_unmarked fun front digits _ _ same => by simp [joined] at same
  have plain : ':' ∉ last.toList := (identifiers last (by simp)).plain
  by_cases marked : front ≠ [] ∧ hashLike last = true
  · obtain ⟨more, like⟩ := marked
    obtain ⟨digits, filled, all, form⟩ := hashLike_iff.mp like
    have path : joined (front ++ [last]) = String.ofList ((joined front).toList ++ ':' :: ':' :: 'h' :: digits) := by
      apply String.toList_injective
      rw [joined_toList_concat more, form, String.toList_ofList]
    have shorter : unhashed (front ++ [last]) = front := by
      simp [unhashed, like, List.length_pos_iff.mpr more]
    rw [path, stripHash_marked filled all, shorter, String.ofList_toList]
  · have whole : unhashed (front ++ [last]) = front ++ [last] := by
      refine if_neg fun both => marked ?_
      simpa [List.length_pos_iff] using both
    rw [whole]
    refine stripHash_unmarked fun rest digits filled all same => ?_
    have apart : ':' ∉ 'h' :: digits := by
      rintro (_ | ⟨_, listed⟩)
      exact isHashDigit_ne (all ':' listed) rfl
    -- Digits would have to stand behind the last colon, where the last identifier stands.
    rcases List.eq_nil_or_concat' front with rfl | ⟨_, _, rfl⟩
    · have single : (joined [last]).toList = last.toList := rfl
      rw [List.nil_append, single] at same
      exact plain (same ▸ by simp)
    · rw [joined_toList_concat (by simp)] at same
      have form : last.toList = 'h' :: digits := tail_unique (a := _ ++ [':']) (b := rest ++ [':']) plain apart (by simpa using same)
      exact marked ⟨by simp, hashLike_iff.mpr ⟨digits, filled, all, form⟩⟩

/-- Whether the last of several identifiers is spelled like a hash. -/
def EndsLikeHash (ids : List String) : Prop := 1 < ids.length ∧ ids.getLast?.any hashLike = true

theorem unhashed_front (ids : List String) : unhashed ids <+: ids := by
  unfold unhashed
  split
  · exact List.dropLast_prefix ids
  · exact List.prefix_rfl

theorem unhashed_ne_nil (filled : ids ≠ []) : unhashed ids ≠ [] := by
  unfold unhashed
  split
  · next both =>
    intro none
    have length := congrArg List.length none
    simp at both length
    omega
  · exact filled

theorem unhashed_eq_iff : unhashed ids = ids ↔ ¬ EndsLikeHash ids := by
  constructor
  · rintro same ⟨several, like⟩
    have shorter := congrArg List.length same
    rw [unhashed, if_pos (by simp [several, like]), List.length_dropLast] at shorter
    omega
  · intro other
    refine if_neg fun both => other ?_
    simpa [EndsLikeHash] using both

theorem unhashed_twice_eq_iff : unhashed (unhashed ids) = ids ↔ ¬ EndsLikeHash ids := by
  rw [← unhashed_eq_iff]
  constructor
  · intro same
    have front := unhashed_front (unhashed ids)
    rw [same] at front
    exact (unhashed_front ids).eq_of_length_le front.length_le
  · intro same
    rw [same, same]

theorem joined_ne_empty (filled : ids ≠ []) (identifiers : ∀ id ∈ ids, IsIdentifier id) : joined ids ≠ "" := by
  rcases List.eq_nil_or_concat' ids with rfl | ⟨front, last, rfl⟩
  · exact absurd rfl filled
  have named := (identifiers last (by simp)).filled
  by_cases more : front = []
  · subst more
    exact named
  · rw [joined_concat more]
    simp

theorem joined_eq_iff {part : List String} (front : part <+: ids) (filled : part ≠ []) : joined part = joined ids ↔ part = ids := by
  constructor
  · intro same
    obtain ⟨rest, rfl⟩ := front
    rcases eq_or_ne rest [] with rfl | more
    · exact (List.append_nil part).symm
    · have lengths := congrArg (·.toList.length) same
      simp [joined, String.intercalate_append_of_ne_nil filled more] at lengths
  · exact congrArg joined

end Joined

/-- A symbol made of a path and a hash. -/
structure Hashed where
  ids : List String
  hash : String
  filled : ids ≠ []
  identifiers : ∀ id ∈ ids, IsIdentifier id
  length : hash.length = 16
  digits : ∀ c ∈ hash.toList, isHashDigit c = true

namespace Hashed

/-- The symbol: each identifier behind its length, then the hash behind its own. -/
def text (p : Hashed) : String :=
  "_ZN" ++ String.join (p.ids.map fun id => toString id.length ++ id) ++ "17h" ++ p.hash ++ "E"

def path (p : Hashed) : String := joined p.ids

def hashedPath (p : Hashed) : String := p.path ++ "::h" ++ p.hash

theorem stripHash_hashedPath (p : Hashed) : stripHash p.hashedPath = p.path := by
  have marked : p.hashedPath = String.ofList (p.path.toList ++ ':' :: ':' :: 'h' :: p.hash.toList) := by
    apply String.toList_injective
    simp [hashedPath]
  have filled : p.hash.toList ≠ [] := by
    intro none
    have length := p.length
    rw [← String.length_toList, none] at length
    cases length
  rw [marked, stripHash_marked filled p.digits, String.ofList_toList]

theorem looksMangled_text (p : Hashed) : looksMangled p.text = true := by
  simp [looksMangled, text]

end Hashed

/-- The logical name that a reader of mangled symbols gives to a symbol. -/
def nameBy (read : String → Option String) (s : String) : String :=
  ((if looksMangled s then read s else none).map stripHash).getD s

theorem nameBy_read? : nameBy read? = logicalName := rfl

end CallFusion.Symbol

namespace CallFusion

open CallFusion.Symbol

/-- The bridge that gives symbols the names that a reader makes of them. -/
def Bridge.readBy {σ : Type} (read : String → Option String) : Bridge σ := fun symbol => return ⟨nameBy read symbol, none⟩

theorem Bridge.readBy_read? {σ : Type} : (Bridge.readBy read? : Bridge σ) = Bridge.inProcess := rfl

namespace Symbol.Hashed

variable {σ : Type} {read : String → Option String} {p : Hashed}

theorem nameBy_text (answers : read p.text = some p.path ∨ read p.text = some p.hashedPath) :
    nameBy read p.text = joined (if read p.text = some p.hashedPath then p.ids else unhashed p.ids) := by
  rw [nameBy, if_pos p.looksMangled_text]
  split
  · next hashed =>
    rw [hashed]
    exact p.stripHash_hashedPath
  · next other =>
    rw [answers.resolve_right other]
    exact stripHash_joined p.identifiers

theorem firstName_text (answers : read p.text = some p.path ∨ read p.text = some p.hashedPath) (state : σ) :
    Locator.firstName (Bridge.readBy read) [] state p.text =
      joined (unhashed (if read p.text = some p.hashedPath then p.ids else unhashed p.ids)) := by
  have kept : ∀ {ids : List String}, ids ≠ [] → (∀ id ∈ ids, IsIdentifier id) → nameBy read p.text = joined ids →
      Locator.firstName (Bridge.readBy read) [] state p.text = joined (unhashed ids) := by
    intro ids filled identifiers named
    have reply : (((Bridge.readBy read : Bridge σ) p.text).run state).1 = ⟨joined ids, none⟩ := congrArg (Reply.mk · none) named
    have whole : (joined ids).isEmpty = false := by simpa using joined_ne_empty filled identifiers
    rw [Locator.firstName_eq, Locator.bare]
    simp only [List.filter_nil, Locator.stripWith, reply, whole, Option.isSome_none, Bool.or_false, Bool.false_eq_true, if_false]
    exact stripHash_joined identifiers
  refine kept ?_ ?_ (nameBy_text answers)
  · split
    · exact p.filled
    · exact unhashed_ne_nil p.filled
  · split
    · exact p.identifiers
    · exact fun id listed => p.identifiers id ((unhashed_front p.ids).subset listed)

/-- The logical name is the path unless the last of several identifiers is spelled like a hash: a locator takes that off, and so
does the bridge when the reader has left out the hash. -/
theorem local_name_iff (answers : read p.text = some p.path ∨ read p.text = some p.hashedPath) (state : σ) :
    (nameBy read p.text = p.path ↔ read p.text = some p.hashedPath ∨ ¬ EndsLikeHash p.ids) ∧
    (Locator.firstName (Bridge.readBy read) [] state p.text = p.path ↔ ¬ EndsLikeHash p.ids) := by
  have once := (joined_eq_iff (unhashed_front p.ids) (unhashed_ne_nil p.filled)).trans unhashed_eq_iff
  have twice := (joined_eq_iff ((unhashed_front _).trans (unhashed_front p.ids))
    (unhashed_ne_nil (unhashed_ne_nil p.filled))).trans unhashed_twice_eq_iff
  rw [nameBy_text answers, firstName_text answers, path]
  by_cases hashed : read p.text = some p.hashedPath
  · rw [if_pos hashed]
    exact ⟨iff_of_true rfl (.inl hashed), once⟩
  · rw [if_neg hashed, or_iff_right hashed]
    exact ⟨once, twice⟩

/-- A path that ends in a name like any other. -/
def invoking : Hashed where
  ids := ["client", "invoke"]
  hash := "0123456789abcdef"
  filled := by decide
  identifiers := by decide
  length := by decide
  digits := List.all_eq_true.mp (by decide)

theorem invoking_named : read? invoking.text = some invoking.path ∧ logicalName invoking.text = invoking.path ∧
    Locator.firstName Bridge.inProcess [] () invoking.text = invoking.path := by
  have answers : read? invoking.text = some invoking.path := by decide +kernel
  have named := local_name_iff (.inl answers) ()
  have plain : ¬ EndsLikeHash invoking.ids := by
    rintro ⟨_, like⟩
    exact absurd like (by decide)
  exact ⟨answers, named.1.mpr (.inr plain), named.2.mpr plain⟩

/-- A path that ends in a name of `h` and hexadecimal letters. -/
def queueHead : Hashed where
  ids := ["queue", "head"]
  hash := "0123456789abcdef"
  filled := by decide
  identifiers := by decide
  length := by decide
  digits := List.all_eq_true.mp (by decide)

/-- The hash is off already, and the last name goes as well. -/
theorem head_taken_for_hash : read? queueHead.text = some queueHead.path ∧ logicalName queueHead.text ≠ queueHead.path ∧
    Locator.firstName Bridge.inProcess [] () queueHead.text ≠ queueHead.path := by
  have answers : read? queueHead.text = some queueHead.path := by decide +kernel
  have named : logicalName queueHead.text = "queue" := by
    rw [← nameBy_read?, nameBy_text (.inl answers)]
    decide +kernel
  have located : Locator.firstName Bridge.inProcess [] () queueHead.text = "queue" := by
    rw [← Bridge.readBy_read?, firstName_text (.inl answers)]
    decide +kernel
  rw [named, located]
  exact ⟨answers, by decide, by decide⟩

end Symbol.Hashed

end CallFusion
