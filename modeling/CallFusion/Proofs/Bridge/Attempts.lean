import CallFusion.Bridge.Filter
import CallFusion.Proofs.Text.Trimmed
import CallFusion.Proofs.Text.Utf8
import Mathlib.Data.ENat.Lattice

/-!
Asking a filter program. It is asked until it gives one line that is not blank, or until the retries are used up, and not
once more. What the program writes are bytes, which need not be characters.
-/

namespace CallFusion

namespace Attempt

variable {σ α : Type} {cancelled : σ → Bool} {attempt : StateM σ (Attempt α)} {s : σ}

/-- The state that so many attempts in a row leave. -/
def after (attempt : StateM σ (Attempt α)) (s : σ) : Nat → σ
  | 0 => s
  | n + 1 => (attempt.run (after attempt s n)).2

/-- How the attempt with this number ends, the first having number 0. -/
def outcome (attempt : StateM σ (Attempt α)) (s : σ) (n : Nat) : Attempt α := (attempt.run (after attempt s n)).1

theorem run_eq (attempt : StateM σ (Attempt α)) (s : σ) : attempt.run s = (outcome attempt s 0, after attempt s 1) := rfl

theorem run_bind {β : Type} {x : StateM σ α} {a : α} {s' : σ} (ran : x.run s = (a, s')) (next : α → StateM σ β) :
    (x >>= next).run s = (next a).run s' := by
  rw [StateT.run_bind, ran]
  rfl

theorem repeated_of_done {a : α} (done : outcome attempt s 0 = .done a) (retries : Nat) :
    (repeated cancelled attempt retries).run s = (.ok a, after attempt s 1) := by
  cases retries with
  | zero | succ =>
    rw [repeated, run_bind (run_eq attempt s), done]
    rfl

theorem repeated_of_failed {cause : Fault} (failed : outcome attempt s 0 = .failed cause)
    (going : cancelled (after attempt s 1) = false) (retries : Nat) :
    (repeated cancelled attempt (retries + 1)).run s = (repeated cancelled attempt retries).run (after attempt s 1) := by
  rw [repeated, run_bind (run_eq attempt s), failed]
  dsimp only
  rw [run_bind (x := get) rfl, going]
  rfl

theorem repeated_zero {cause : Fault} (failed : outcome attempt s 0 = .failed cause)
    (going : cancelled (after attempt s 1) = false) :
    (repeated cancelled attempt 0).run s = (.error cause, after attempt s 1) := by
  rw [repeated, run_bind (run_eq attempt s), failed]
  dsimp only
  rw [run_bind (x := get) rfl, going]
  rfl

theorem repeated_skip {n : Nat} (going : ∀ k, cancelled (after attempt s k) = false)
    (failed : ∀ k < n, ∃ cause, outcome attempt s k = .failed cause) (retries : Nat) :
    (repeated cancelled attempt (n + retries)).run s = (repeated cancelled attempt retries).run (after attempt s n) := by
  induction n generalizing retries with
  | zero =>
    rw [Nat.zero_add]
    rfl
  | succ n ih =>
    obtain ⟨cause, last⟩ := failed n (Nat.lt_succ_self n)
    have step : (repeated cancelled attempt (retries + 1)).run (after attempt s n) =
        (repeated cancelled attempt retries).run (after attempt s (n + 1)) := repeated_of_failed last (going (n + 1)) retries
    rw [Nat.add_assoc, Nat.add_comm 1 retries, ih fun k less => failed k (Nat.lt_succ_of_lt less), step]

theorem repeated_done {a : α} {n retries : Nat} (going : ∀ k, cancelled (after attempt s k) = false)
    (failed : ∀ k < n, ∃ cause, outcome attempt s k = .failed cause) (done : outcome attempt s n = .done a)
    (near : n ≤ retries) : (repeated cancelled attempt retries).run s = (.ok a, after attempt s (n + 1)) := by
  rw [← Nat.add_sub_of_le near, repeated_skip going failed]
  exact repeated_of_done done (retries - n)

theorem repeated_failed {cause : Fault} {retries : Nat} (going : ∀ k, cancelled (after attempt s k) = false)
    (failed : ∀ k < retries, ∃ cause, outcome attempt s k = .failed cause)
    (last : outcome attempt s retries = .failed cause) :
    (repeated cancelled attempt retries).run s = (.error cause, after attempt s (retries + 1)) := by
  have skipped := repeated_skip going failed 0
  rw [Nat.add_zero] at skipped
  rw [skipped]
  exact repeated_zero last (going (retries + 1))

end Attempt

namespace Text

theorem length_splitChar (sep : Char) (s : String) : (splitChar sep s).length = s.toList.count sep + 1 := by
  rw [splitChar, List.length_map]
  induction s.toList with
  | nil => rfl
  | cons c cs ih =>
    rw [splitChar.go, List.count_cons]
    split
    · rw [List.length_cons, ih]
    · split
      · next none => simp [none] at ih
      · next piece rest pieces => rw [← ih, pieces, List.length_cons, List.length_cons]

theorem splitChar_of_notMem {sep : Char} {s : String} (absent : sep ∉ s.toList) : splitChar sep s = [s] := by
  have whole : ∀ cs : List Char, sep ∉ cs → splitChar.go sep cs = [cs] := by
    intro cs
    induction cs with
    | nil => exact fun _ => rfl
    | cons c cs ih =>
      intro absent
      obtain ⟨other, later⟩ := not_or.mp (List.mem_cons.not.mp absent)
      simp [splitChar.go, ih later, Ne.symm other]
  rw [splitChar, whole _ absent, List.map_singleton, String.ofList_toList]

end Text

namespace Filter

open Text

def isLineEndByte (b : UInt8) : Bool := b == 13 || b == 10

def unended (output : List UInt8) : List UInt8 := output.rdropWhile isLineEndByte

/-- An output that is one line and not a blank one, with the name in the line. -/
structure Clean (output : List UInt8) (name : String) : Prop where
  single : 10 ∉ unended output
  trimmed : name = trim (ofBytes (unended output))
  notBlank : name ≠ ""

/-- A program that ends as listed, run after run. Its state is what it was asked so far. -/
def playing (path : String) (retries : UInt64) (ends : Nat → Except Fault (List UInt8)) : Filter (List String) where
  path := path
  retries := retries
  run input := fun asked => ((ends asked.length).map ofBytes, asked ++ [input])
  cancelled _ := false

def Answered (ended : Except Fault (List UInt8)) : Prop := ∃ output name, ended = .ok output ∧ Clean output name

/-- The number of the first run that gave a name, counted from one. It is infinite if there is none. -/
noncomputable def firstAnswered (ends : Nat → Except Fault (List UInt8)) : ℕ∞ :=
  ⨅ (n : ℕ) (_ : Answered (ends n)), ((n + 1 : ℕ) : ℕ∞)

theorem isLineEnd_of_mem {bs : List UInt8} {c : Char} (ends : ∀ b ∈ bs, isLineEndByte b = true) (listed : c ∈ chars bs) :
    isLineEnd c = true := by
  obtain ⟨b, present, byte⟩ := exists_mem_charBytes listed
  have ending : b = 13 ∨ b = 10 := by simpa [isLineEndByte] using ends b present
  obtain rfl | rfl := ending
  · obtain rfl := eq_of_mem_charBytes (d := '\r') (by decide) byte
    rfl
  · obtain rfl := eq_of_mem_charBytes (d := '\n') (by decide) byte
    rfl

theorem chars_unended (output : List UInt8) : (chars (unended output)).rdropWhile isLineEnd = chars (unended output) := by
  refine List.rdropWhile_eq_self_iff.mpr fun some last => ?_
  obtain ⟨c, same⟩ : ∃ c, (chars (unended output)).getLast some = c := ⟨_, rfl⟩
  rw [same] at last
  have whole : unended output = (chars (unended output)).dropLast.flatMap charBytes ++ charBytes c := by
    conv_lhs => rw [← bytes_ofBytes (unended output), bytes, ofBytes, String.toList_ofList]
    conv_lhs => rw [← List.dropLast_append_getLast some]
    rw [List.flatMap_append, same, List.flatMap_singleton]
  have ending : c = '\r' ∨ c = '\n' := by simpa [isLineEnd] using last
  have byte : ∃ b, isLineEndByte b = true ∧ charBytes c = [b] := by
    obtain rfl | rfl := ending
    · exact ⟨13, by decide, charBytes_ascii (by decide)⟩
    · exact ⟨10, by decide, charBytes_ascii (by decide)⟩
  obtain ⟨b, closes, alone⟩ := byte
  rw [alone] at whole
  have again : (unended output).rdropWhile isLineEndByte = unended output := List.rdropWhile_idempotent isLineEndByte output
  rw [whole, List.rdropWhile_concat_pos isLineEndByte _ _ closes] at again
  have shorter := (List.rdropWhile_prefix isLineEndByte ((chars (unended output)).dropLast.flatMap charBytes)).length_le
  simp [again] at shorter

theorem trimEnd_ofBytes (output : List UInt8) : trimEndWith isLineEnd (ofBytes output) = ofBytes (unended output) := by
  have behind : ∀ b ∈ output.rtakeWhile isLineEndByte, isLineEndByte b = true := fun b => List.mem_rtakeWhile_imp
  have ascii : ∀ b ∈ output.rtakeWhile isLineEndByte, b < 0x80 := by
    intro b listed
    have ending : b = 13 ∨ b = 10 := by simpa [isLineEndByte] using behind b listed
    obtain rfl | rfl := ending <;> decide
  have parts : chars output = chars (unended output) ++ chars (output.rtakeWhile isLineEndByte) := by
    rw [← chars_append _ ascii, unended, List.rdropWhile_append_rtakeWhile]
  apply String.toList_injective
  calc (trimEndWith isLineEnd (ofBytes output)).toList
    _ = (chars output).rdropWhile isLineEnd := by
      rw [trimEndWith, ofBytes, String.toList_ofList, String.toList_ofList, List.rdropWhile]
    _ = (chars (unended output)).rdropWhile isLineEnd := by
      rw [parts, rdropWhile_append fun c => isLineEnd_of_mem behind]
    _ = chars (unended output) := chars_unended output
    _ = (ofBytes (unended output)).toList := by rw [ofBytes, String.toList_ofList]

theorem newline_mem_ofBytes {bs : List UInt8} : '\n' ∈ (ofBytes bs).toList ↔ 10 ∈ bs := by
  constructor
  · intro listed
    have byte : (10 : UInt8) ∈ bytes (ofBytes bs) :=
      List.mem_flatMap.mpr ⟨'\n', listed, by rw [charBytes_ascii (by decide)]; decide⟩
    rwa [bytes_ofBytes] at byte
  · intro listed
    rw [← bytes_ofBytes bs] at listed
    obtain ⟨c, present, byte⟩ := List.mem_flatMap.mp listed
    exact eq_of_mem_charBytes (d := '\n') (by decide) byte ▸ present

theorem name?_eq_some_iff {output : List UInt8} {name : String} : name? (ofBytes output) = some name ↔ Clean output name := by
  have one : (∃ line, lines (ofBytes output) = [line]) ↔ 10 ∉ unended output := by
    rw [lines, trimEnd_ofBytes, ← List.length_eq_one_iff, length_splitChar, Nat.add_eq_right, List.count_eq_zero,
      newline_mem_ofBytes]
  by_cases single : 10 ∈ unended output
  · have several : name? (ofBytes output) = none := by
      unfold name?
      split
      · next line found => exact absurd ⟨line, found⟩ (one.not.mpr (not_not.mpr single))
      · rfl
    rw [several]
    exact iff_of_false nofun fun clean => clean.single single
  · have alone : lines (ofBytes output) = [ofBytes (unended output)] := by
      rw [lines, trimEnd_ofBytes, splitChar_of_notMem (newline_mem_ofBytes.not.mpr single)]
    simp only [name?, alone]
    constructor
    · intro found
      obtain ⟨present, same⟩ := Option.ite_none_left_eq_some.mp found
      obtain rfl := Option.some.inj same
      exact ⟨single, rfl, by simpa using present⟩
    · rintro ⟨-, rfl, present⟩
      exact if_neg (by simpa using present)

def judged (path : String) : Except Fault (List UInt8) → Attempt String
  | .error cause => .failed cause
  | .ok output => match name? (ofBytes output) with
    | some name => .done name
    | none => .failed (unusable path (ofBytes output))

section Playing

variable {path : String} {retries : UInt64} {ends : Nat → Except Fault (List UInt8)} {symbol : String}

theorem attempt_playing (asked : List String) : ((playing path retries ends).attempt symbol).run asked =
    (judged path (ends asked.length), asked ++ [symbol ++ "\n"]) := by
  have ran : ((playing path retries ends).run (symbol ++ "\n")).run asked =
      ((ends asked.length).map ofBytes, asked ++ [symbol ++ "\n"]) := rfl
  rw [attempt, Attempt.run_bind ran]
  cases ends asked.length with
  | error cause => rfl
  | ok output =>
    simp only [judged, Except.map]
    cases name? (ofBytes output) <;> rfl

theorem after_playing (n : Nat) :
    Attempt.after ((playing path retries ends).attempt symbol) [] n = List.replicate n (symbol ++ "\n") := by
  induction n with
  | zero => rfl
  | succ n ih => rw [Attempt.after, ih, attempt_playing, List.replicate_succ']

theorem outcome_playing (n : Nat) :
    Attempt.outcome ((playing path retries ends).attempt symbol) [] n = judged path (ends n) := by
  rw [Attempt.outcome, after_playing, attempt_playing, List.length_replicate]

end Playing

theorem judged_eq_done_iff {path : String} {ended : Except Fault (List UInt8)} {name : String} :
    judged path ended = .done name ↔ ∃ output, ended = .ok output ∧ Clean output name := by
  unfold judged
  cases ended with
  | error cause => simp
  | ok output =>
    simp only [Except.ok.injEq, exists_eq_left', ← name?_eq_some_iff]
    cases name? (ofBytes output) <;> simp

theorem exists_failed (path : String) {ended : Except Fault (List UInt8)} (unanswered : ¬ Answered ended) :
    ∃ cause, judged path ended = .failed cause ∧
      (ended = .error cause ∨ ∃ output, ended = .ok output ∧ cause = unusable path (ofBytes output)) := by
  cases ended with
  | error cause => exact ⟨cause, rfl, .inl rfl⟩
  | ok output =>
    have unnamed : name? (ofBytes output) = none := by
      refine Option.eq_none_iff_forall_ne_some.mpr fun name found => ?_
      exact unanswered ⟨output, name, rfl, name?_eq_some_iff.mp found⟩
    exact ⟨unusable path (ofBytes output), by simp [judged, unnamed], .inr ⟨output, rfl, rfl⟩⟩

theorem firstAnswered_eq {ends : Nat → Except Fault (List UInt8)} {n : Nat} (answered : Answered (ends n))
    (before : ∀ k < n, ¬ Answered (ends k)) : firstAnswered ends = (n + 1 : ℕ) := by
  refine le_antisymm (iInf₂_le n answered) (le_iInf₂ fun k earlier => ?_)
  have late : n ≤ k := Nat.le_of_not_lt fun less => before k less earlier
  exact_mod_cast Nat.succ_le_succ late

theorem lt_firstAnswered {ends : Nat → Except Fault (List UInt8)} {n : Nat} (before : ∀ k ≤ n, ¬ Answered (ends k)) :
    ((n + 1 : ℕ) : ℕ∞) < firstAnswered ends := by
  have beyond : ((n + 2 : ℕ) : ℕ∞) ≤ firstAnswered ends := by
    refine le_iInf₂ fun k answered => ?_
    have late : n < k := Nat.lt_of_not_le fun within => before k within answered
    exact_mod_cast Nat.succ_le_succ late
  exact lt_of_lt_of_le (by exact_mod_cast Nat.lt_succ_self (n + 1)) beyond

theorem bridge_run {σ : Type} {p : Filter σ} {symbol : String} {s s' : σ} {answer : Except Fault String} (named : symbol ≠ "")
    (ran : (Attempt.repeated p.cancelled (p.attempt symbol) p.retries.toNat).run s = (answer, s')) :
    (p.bridge symbol).run s = (Attempt.reply symbol (answer.map Symbol.stripHash), s') := by
  rw [bridge, if_neg (by simpa using named), Attempt.run_bind ran]
  rfl

/-- The program is asked with the symbol on a line until it gives a name, and once more than there are retries at most.
The name is the answer; without one the symbol keeps its own, with the reason that the last run gave. The empty symbol is
not asked about. -/
theorem asked_until_answered (path : String) (retries : UInt64) (ends : Nat → Except Fault (List UInt8)) (symbol : String) :
    ∃ made reply, ((playing path retries ends).bridge symbol).run [] = (reply, List.replicate made (symbol ++ "\n")) ∧
      (symbol = "" → made = 0 ∧ reply = ⟨"", none⟩) ∧
      (symbol ≠ "" → (made : ℕ∞) = min (firstAnswered ends) (retries.toNat + 1) ∧
        (firstAnswered ends ≤ retries.toNat + 1 →
          ∃ output name, ends (made - 1) = .ok output ∧ Clean output name ∧ reply = ⟨Symbol.stripHash name, none⟩) ∧
        (retries.toNat + 1 < firstAnswered ends →
          ∃ cause, reply = ⟨symbol, some (.demanglerUnavailable (some cause))⟩ ∧ (ends (made - 1) = .error cause ∨
            ∃ output, ends (made - 1) = .ok output ∧ cause = unusable path (ofBytes output)))) := by
  obtain rfl | named := eq_or_ne symbol ""
  · exact ⟨0, ⟨"", none⟩, rfl, fun _ => ⟨rfl, rfl⟩, fun named => absurd rfl named⟩
  have going : ∀ k, (playing path retries ends).cancelled
      (Attempt.after ((playing path retries ends).attempt symbol) [] k) = false := fun _ => rfl
  have failed : ∀ k, ¬ Answered (ends k) →
      ∃ cause, Attempt.outcome ((playing path retries ends).attempt symbol) [] k = .failed cause := fun k unanswered => by
    rw [outcome_playing]
    exact (exists_failed path unanswered).imp fun _ => And.left
  by_cases reached : ∃ n ≤ retries.toNat, Answered (ends n)
  · classical
    obtain ⟨n, found⟩ : ∃ n, n = Nat.find reached := ⟨_, rfl⟩
    obtain ⟨within, answered⟩ := found ▸ Nat.find_spec reached
    have before : ∀ k < n, ¬ Answered (ends k) := fun k less earlier =>
      Nat.find_min reached (found ▸ less) ⟨Nat.le_trans (Nat.le_of_lt less) within, earlier⟩
    obtain ⟨output, name, ran, clean⟩ := answered
    have done := Attempt.repeated_done going (fun k less => failed k (before k less))
      ((outcome_playing n).trans (judged_eq_done_iff.mpr ⟨output, ran, clean⟩)) within
    have first := firstAnswered_eq ⟨output, name, ran, clean⟩ before
    have small : firstAnswered ends ≤ retries.toNat + 1 := by
      rw [first]
      exact_mod_cast Nat.succ_le_succ within
    refine ⟨n + 1, ⟨Symbol.stripHash name, none⟩, ?_, fun empty => absurd empty named, fun _ => ⟨?_, fun _ => ?_, ?_⟩⟩
    · rw [bridge_run named done, after_playing]
      rfl
    · rw [min_eq_left small, first]
    · exact ⟨output, name, ran, clean, rfl⟩
    · exact fun large => absurd large (not_lt_of_ge small)
  · have unanswered : ∀ k ≤ retries.toNat, ¬ Answered (ends k) := fun k within answered => reached ⟨k, within, answered⟩
    obtain ⟨cause, last, why⟩ := exists_failed path (unanswered retries.toNat le_rfl)
    have failing := Attempt.repeated_failed going (fun k less => failed k (unanswered k (Nat.le_of_lt less)))
      ((outcome_playing retries.toNat).trans last)
    have large : (retries.toNat + 1 : ℕ∞) < firstAnswered ends := by exact_mod_cast lt_firstAnswered unanswered
    refine ⟨retries.toNat + 1, ⟨symbol, some (.demanglerUnavailable (some cause))⟩, ?_, fun empty => absurd empty named,
      fun _ => ⟨?_, fun small => ?_, fun _ => ⟨cause, rfl, why⟩⟩⟩
    · rw [bridge_run named failing, after_playing]
      rfl
    · rw [min_eq_right (le_of_lt large)]
      rfl
    · exact absurd large (not_lt_of_ge small)

def answersThird (n : Nat) : Except Fault (List UInt8) :=
  if n < 2 then .error (.plain "resource temporarily unavailable") else .ok [102, 111, 111, 13, 10]

theorem clean_answersThird : Clean [102, 111, 111, 13, 10] "foo" where
  single := by decide
  trimmed := by
    have line : unended [102, 111, 111, 13, 10] = [102, 111, 111] := by decide
    have read : chars [102, 111, 111] = ['f', 'o', 'o'] := by simp [chars, firstChar, carried, stray?, strayBase]
    rw [line, ofBytes, read]
    decide
  notBlank := by decide

theorem asked_three_times : "_ZN3fooE" ≠ "" ∧ ((playing "rustfilt" 5 answersThird).bridge "_ZN3fooE").run [] =
    (⟨Symbol.stripHash "foo", none⟩, ["_ZN3fooE\n", "_ZN3fooE\n", "_ZN3fooE\n"]) := by
  refine ⟨by decide, ?_⟩
  have first : firstAnswered answersThird = (2 + 1 : ℕ) := by
    refine firstAnswered_eq ⟨_, "foo", rfl, clean_answersThird⟩ fun k less => ?_
    simp [answersThird, less, Answered]
  obtain ⟨made, reply, ran, -, asked⟩ := asked_until_answered "rustfilt" 5 answersThird "_ZN3fooE"
  obtain ⟨number, given, -⟩ := asked (by decide)
  have retries : ((5 : UInt64).toNat : ℕ∞) + 1 = (6 : ℕ) := rfl
  have three : made = 3 := by
    rw [first, retries, min_eq_left (by decide)] at number
    exact_mod_cast number
  subst three
  obtain ⟨output, name, ended, clean, rfl⟩ := given (by rw [first, retries]; decide)
  obtain rfl : [102, 111, 111, 13, 10] = output := by simpa [answersThird] using ended
  rw [ran, clean.trimmed, ← clean_answersThird.trimmed]
  rfl

end Filter

end CallFusion
