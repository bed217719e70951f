import CallFusion.Proofs.Merge.EntryNames

/-!
Partition names behind symbols. Renaming puts them there and a locator takes them off again, the caller's ahead of
the callee's, so a symbol that reads as a renamed one in two ways is taken for one of the caller's half.
-/

namespace CallFusion

open Ir CallFusion.Symbol

/-- The one text is the end of the other, behind an underscore. -/
def TailOf (tail text : String) : Prop := ∃ front, text = front ++ "_" ++ tail

section

variable {s t a b : String}

theorem toList_suffixed (s a : String) : (s ++ "_" ++ a).toList = s.toList ++ '_' :: a.toList := by
  simp

/-- Two texts with a suffix each are equal where both parts are, or where the longer suffix ends in the shorter one
and starts with what the other text has more. -/
theorem suffixed_eq_iff : s ++ "_" ++ a = t ++ "_" ++ b ↔
    (s = t ∧ a = b) ∨ (∃ u, s = t ++ "_" ++ u ∧ b = u ++ "_" ++ a) ∨ ∃ u, t = s ++ "_" ++ u ∧ a = u ++ "_" ++ b := by
  have longer : ∀ {s t a b : String} {c : List Char}, s.toList = t.toList ++ c → '_' :: b.toList = c ++ '_' :: a.toList →
      (s = t ∧ a = b) ∨ ∃ u, s = t ++ "_" ++ u ∧ b = u ++ "_" ++ a := by
    intro s t a b c front rest
    cases c with
    | nil =>
      refine .inl ⟨String.toList_injective (by simpa using front), String.toList_injective ?_⟩
      simpa using rest.symm
    | cons first u =>
      obtain ⟨rfl, rest⟩ := List.cons.inj rest
      refine .inr ⟨String.ofList u, String.toList_injective ?_, String.toList_injective ?_⟩
      · simpa using front
      · simpa using rest
  constructor
  · intro same
    have lists : s.toList ++ '_' :: a.toList = t.toList ++ '_' :: b.toList := by
      rw [← toList_suffixed, ← toList_suffixed, same]
    rcases List.append_eq_append_iff.mp lists with ⟨c, front, rest⟩ | ⟨c, front, rest⟩
    · rcases longer front rest with ⟨rfl, rfl⟩ | later
      · exact .inl ⟨rfl, rfl⟩
      · exact .inr (.inr later)
    · rcases longer front rest with equal | later
      · exact .inl equal
      · exact .inr (.inl later)
  · rintro (⟨rfl, rfl⟩ | ⟨u, rfl, rfl⟩ | ⟨u, rfl, rfl⟩)
    · rfl
    · simp only [String.append_assoc]
    · simp only [String.append_assoc]

theorem suffixed_ne_self (s a : String) : s ++ "_" ++ a ≠ s := by
  intro same
  have lengths := congrArg (·.toList.length) same
  simp at lengths

end

namespace Locator

section

variable {s t : String} {rest : List String}

theorem endsWith_iff {name ending : String} : name.endsWith ending = true ↔ ∃ front, name = front ++ ending := by
  rw [← String.endsWith_toSlice, String.Slice.endsWith_string_iff]
  constructor
  · rintro ⟨front, same⟩
    exact ⟨String.ofList front, String.toList_injective (by simpa using same.symm)⟩
  · rintro ⟨front, rfl⟩
    exact ⟨front.toList, by simp⟩

theorem dropEnd_append (front ending : String) : ((front ++ ending).dropEnd ending.length).toString = front := by
  apply String.toList_injective
  have lengths : (front ++ ending).toList.length - ending.length = front.toList.length := by
    rw [String.toList_append, List.length_append, String.length_toList, String.length_toList, Nat.add_sub_cancel]
  change ((front ++ ending).dropEnd ending.length).copy.toList = _
  rw [String.toList_copy_dropEnd, lengths, String.toList_append, List.take_left']
  rfl

theorem stripWith_suffixed (filled : t ≠ "") : stripWith (s :: rest) (t ++ "_" ++ s) = t := by
  have ends : (t ++ ("_" ++ s)).endsWith ("_" ++ s) = true := endsWith_iff.mpr ⟨t, rfl⟩
  have more : (t ++ ("_" ++ s) != "_" ++ s) = true := by simpa using filled
  rw [String.append_assoc, stripWith]
  simp only [ends, more, Bool.and_self, if_true]
  exact dropEnd_append t ("_" ++ s)

theorem stripWith_passed {name : String} (absent : ∀ t, t ≠ "" → name ≠ t ++ "_" ++ s) :
    stripWith (s :: rest) name = stripWith rest name := by
  rw [stripWith]
  refine if_neg fun passed => ?_
  rw [Bool.and_eq_true, endsWith_iff] at passed
  obtain ⟨⟨front, form⟩, more⟩ := passed
  refine absent front ?_ (by rw [form, String.append_assoc])
  rintro rfl
  simp [form] at more

end

variable {σ : Type}

/-- What a bridge makes of a symbol as it stands, less a hash. The symbol is its own name when the bridge is of no help. -/
def bare (bridge : Bridge σ) (state : σ) (symbol : String) : String :=
  let reply := ((bridge symbol).run state).1
  stripHash (if reply.fault.isSome || reply.name.isEmpty then symbol else reply.name)

/-- The logical name that a locator gives to the first symbol it is asked for. -/
def firstName (bridge : Bridge σ) (suffixes : List String) (state : σ) (symbol : String) : String :=
  ((logical bridge symbol).run (new suffixes state)).1

theorem firstName_eq (bridge : Bridge σ) (suffixes : List String) (state : σ) (symbol : String) :
    firstName bridge suffixes state symbol = bare bridge state (stripWith (suffixes.filter (· != "")) symbol) := rfl

section

variable (bridge : Bridge σ) (state : σ) {caller callee s : String}

theorem firstName_caller (named : caller ≠ "") (rest : List String) (filled : s ≠ "") :
    firstName bridge (caller :: rest) state (s ++ "_" ++ caller) = bare bridge state s := by
  rw [firstName_eq, List.filter_cons_of_pos (by simpa using named), stripWith_suffixed filled]

theorem firstName_callee (named : caller ≠ "") (named' : callee ≠ "") (filled : s ≠ "")
    (absent : ∀ t, t ≠ "" → s ++ "_" ++ callee ≠ t ++ "_" ++ caller) :
    firstName bridge [caller, callee] state (s ++ "_" ++ callee) = bare bridge state s := by
  rw [firstName_eq, List.filter_cons_of_pos (by simpa using named), List.filter_cons_of_pos (by simpa using named'),
    stripWith_passed absent, stripWith_suffixed filled]

end

end Locator

section

variable {σ : Type} {bridge : Bridge σ} {state : σ} {m : Module} {f target : Function} {site : CallSite}

namespace Renaming

/-- The name that a locator has for what a call site of a renamed half calls, if it is asked for that first. -/
def calledAs (r : Renaming) (bridge : Bridge σ) (suffixes : List String) (state : σ) (m : Module) (f : Function)
    (site : CallSite) : String :=
  ((Locator.calleeName bridge (r.applyTo m) { f with symbol := r.identFor f } site).run (Locator.new suffixes state)).1

theorem calledAs_eq {r : Renaming} (legible : r.Legible m) (called : m.calledFunction? f site = some target)
    (suffixes : List String) :
    r.calledAs bridge suffixes state m f site = Locator.firstName bridge suffixes state (r.nameFor target) := by
  obtain ⟨id, direct, known⟩ := Option.bind_eq_some_iff.mp called
  have same : { f with symbol := r.identFor f }.calledId? site = f.calledId? site :=
    Function.calledId?_congr (f := f) (g := { f with symbol := r.identFor f }) rfl site
  have renamed : (r.applyTo m).calledFunction? { f with symbol := r.identFor f } site =
      some { target with symbol := r.identFor target } := by
    rw [Module.calledFunction?, same, direct, Option.bind_some, function?_applyTo, known, Option.map_some]
  simp only [calledAs, Locator.calleeName, renamed, Locator.firstName, name_identFor legible (function?_mem known).1]

end Renaming

theorem calledFunction?_mem (called : m.calledFunction? f site = some target) : target ∈ m.functions := by
  obtain ⟨_, _, known⟩ := Option.bind_eq_some_iff.mp called
  exact (function?_mem known).1

theorem callerRenaming_calledAs (ids : m.symbolIds.Nodup) (called : m.calledFunction? f site = some target)
    (ordinary : isIntrinsic target.name = false) (caller : String) (suffixes : List String) :
    (callerRenaming m caller).calledAs bridge suffixes state m f site =
      Locator.firstName bridge suffixes state (target.name ++ "_" ++ caller) := by
  rw [Renaming.calledAs_eq (callerRenaming_legible ids caller) called, callerRenaming_nameFor ids (calledFunction?_mem called),
    ordinary]
  rfl

theorem calleeRenaming_calledAs (ids : m.symbolIds.Nodup) (called : m.calledFunction? f site = some target)
    (ordinary : isIntrinsic target.name = false) {p : Profile} {callee : String} (shown : p.Legible callee)
    {entry work : Function} {start : Option Function}
    (other : (specialNames p callee entry work start).find? (·.1 == target.id) = none) (suffixes : List String) :
    (calleeRenaming m p callee entry work start).calledAs bridge suffixes state m f site =
      Locator.firstName bridge suffixes state (target.name ++ "_" ++ callee) := by
  rw [Renaming.calledAs_eq (calleeRenaming_legible ids shown entry work start) called,
    calleeRenaming_nameFor ids (calledFunction?_mem called), ordinary, other]
  rfl

end

/-- The names that a locator of two partitions has for a symbol which renaming has put their names behind. -/
structure Undone {σ : Type} (bridge : Bridge σ) (state : σ) (caller callee s : String) : Prop where
  byCaller : Locator.firstName bridge [caller, callee] state (s ++ "_" ++ caller) = Locator.bare bridge state s
  byCallee : (∀ t, t ≠ "" → s ++ "_" ++ callee = t ++ "_" ++ caller → t = s) →
    Locator.firstName bridge [caller, callee] state (s ++ "_" ++ callee) = Locator.bare bridge state s
  shared : ∀ t, t ≠ "" → s ++ "_" ++ callee = t ++ "_" ++ caller →
    Locator.firstName bridge [caller, callee] state (s ++ "_" ++ callee) = Locator.bare bridge state t
  ambiguous : (∃ t, t ≠ "" ∧ t ≠ s ∧ s ++ "_" ++ callee = t ++ "_" ++ caller) ↔
    TailOf caller callee ∨ ∃ t u, t ≠ "" ∧ s = t ++ "_" ++ u ∧ caller = u ++ "_" ++ callee
  inCaller : ∀ (m : Module) (f target : Function) (site : CallSite), m.symbolIds.Nodup →
    m.calledFunction? f site = some target → target.name = s → isIntrinsic s = false →
      (callerRenaming m caller).calledAs bridge [caller, callee] state m f site = Locator.bare bridge state s
  inCallee : ∀ (m : Module) (f target : Function) (site : CallSite) (p : Profile) (entry work : Function)
    (start : Option Function), m.symbolIds.Nodup → p.Legible callee → m.calledFunction? f site = some target →
      target.name = s → isIntrinsic s = false → (specialNames p callee entry work start).find? (·.1 == target.id) = none →
        (calleeRenaming m p callee entry work start).calledAs bridge [caller, callee] state m f site =
          Locator.firstName bridge [caller, callee] state (s ++ "_" ++ callee)

/-- A locator takes off the suffix that renaming has put behind a symbol, unless the new symbol reads as one of the
caller's half in another way. -/
theorem locator_undoes_renaming {σ : Type} (bridge : Bridge σ) (state : σ) {caller callee s : String} (named : caller ≠ "")
    (named' : callee ≠ "") (filled : s ≠ "") : Undone bridge state caller callee s := by
  have first := Locator.firstName_caller bridge state named [callee] filled
  have shared : ∀ t, t ≠ "" → s ++ "_" ++ callee = t ++ "_" ++ caller →
      Locator.firstName bridge [caller, callee] state (s ++ "_" ++ callee) = Locator.bare bridge state t := by
    intro t other same
    rw [same, Locator.firstName_caller bridge state named [callee] other]
  constructor
  case byCaller => exact first
  case shared => exact shared
  case byCallee =>
    intro only
    by_cases read : ∃ t, t ≠ "" ∧ s ++ "_" ++ callee = t ++ "_" ++ caller
    · obtain ⟨t, other, same⟩ := read
      rw [shared t other same, only t other same]
    · exact Locator.firstName_callee bridge state named named' filled fun t other same => read ⟨t, other, same⟩
  case ambiguous =>
    constructor
    · rintro ⟨t, other, apart, same⟩
      rcases suffixed_eq_iff.mp same with ⟨equal, _⟩ | ⟨u, longer, ending⟩ | ⟨u, _, ending⟩
      · exact absurd equal.symm apart
      · exact .inr ⟨t, u, other, longer, ending⟩
      · exact .inl ⟨u, ending⟩
    · rintro (⟨u, rfl⟩ | ⟨t, u, other, rfl, rfl⟩)
      · exact ⟨s ++ "_" ++ u, by simp, suffixed_ne_self s u, suffixed_eq_iff.mpr (.inr (.inr ⟨u, rfl, rfl⟩))⟩
      · exact ⟨t, other, (suffixed_ne_self t u).symm, suffixed_eq_iff.mpr (.inr (.inl ⟨u, rfl, rfl⟩))⟩
  case inCaller =>
    intro m f target site ids called known ordinary
    rw [callerRenaming_calledAs ids called (known ▸ ordinary), known, first]
  case inCallee =>
    intro m f target site p entry work start ids shown called known ordinary other
    rw [calleeRenaming_calledAs ids called (known ▸ ordinary) shown other, known]

theorem Locator.bare_plain {symbol : String} (plain : logicalName symbol = symbol) (hash : stripHash symbol = symbol) :
    bare Bridge.inProcess () symbol = symbol := by
  have reply : ((Bridge.inProcess symbol).run ()).1 = ⟨symbol, none⟩ := congrArg (Reply.mk · none) plain
  simp only [bare, reply, Option.isSome_none, Bool.false_or, ite_self, hash]

theorem stub_recognised_in_both_halves :
    Locator.firstName Bridge.inProcess ["a", "b"] () "main.make__rpc_a" = "main.make__rpc" ∧
      Locator.firstName Bridge.inProcess ["a", "b"] () "main.make__rpc_b" = "main.make__rpc" := by
  have undone : Undone Bridge.inProcess () "a" "b" "main.make__rpc" :=
    locator_undoes_renaming Bridge.inProcess () (by decide) (by decide) (by decide)
  have plain : Locator.bare Bridge.inProcess () "main.make__rpc" = "main.make__rpc" :=
    Locator.bare_plain (by simp [logicalName, looksMangled]) (by decide +kernel)
  refine ⟨undone.byCaller.trans plain, (undone.byCallee fun t _ same => ?_).trans plain⟩
  rcases suffixed_eq_iff.mp same with ⟨equal, _⟩ | ⟨u, _, ending⟩ | ⟨u, _, ending⟩
  · exact equal.symm
  · have lengths := congrArg (·.toList.length) ending
    simp at lengths
  · have lengths := congrArg (·.toList.length) ending
    simp at lengths

/-- The suffix of the caller is tried first, and where it is the end of the callee's the rest of that stays. -/
theorem caller_suffix_taken_first :
    ¬ ∀ caller callee s x : String, caller ≠ callee → caller ≠ "" → callee ≠ "" → s ≠ "" → x = caller ∨ x = callee →
      Locator.firstName Bridge.inProcess [caller, callee] () (s ++ "_" ++ x) = Locator.bare Bridge.inProcess () s := by
  intro undone
  have wanted := undone "a" "b_a" "main.make__rpc" "b_a" (by decide) (by decide) (by decide) (by decide) (.inr rfl)
  have same : "main.make__rpc" ++ "_" ++ "b_a" = "main.make__rpc_b" ++ "_" ++ "a" := by decide
  rw [same, Locator.firstName_caller Bridge.inProcess () (by decide) ["b_a"] (by decide),
    Locator.bare_plain (by simp [logicalName, looksMangled]) (by decide +kernel),
    Locator.bare_plain (by simp [logicalName, looksMangled]) (by decide +kernel)] at wanted
  exact absurd wanted (by decide)

end CallFusion
