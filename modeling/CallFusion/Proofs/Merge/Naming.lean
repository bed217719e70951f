import CallFusion.Proofs.Merge.Reports

/-!
What a locator's answers are worth. A name that was given to a symbol once is given to it ever after, so every
search of a run is a plain search through the call sites, by the names that the last locator of the run gives.
-/

namespace CallFusion

open Ir

variable {σ : Type}

namespace Locator

/-- The locator has named the symbol. -/
def Knows (l : Locator σ) (symbol name : String) : Prop := l.names.find? (·.1 == symbol) = some (symbol, name)

/-- Later on, a locator knows what it knew before. -/
def Extends (later l : Locator σ) : Prop := ∀ symbol name, l.Knows symbol name → later.Knows symbol name

theorem Extends.refl (l : Locator σ) : l.Extends l := fun _ _ known => known

theorem Extends.trans {l k j : Locator σ} (second : j.Extends k) (first : k.Extends l) : j.Extends l :=
  fun symbol name known => second symbol name (first symbol name known)

/-- The name that a locator would now give to what a call site calls. -/
def nameAt (bridge : Bridge σ) (m : Module) (f : Function) (l : Locator σ) (site : CallSite) : String :=
  ((calleeName bridge m f site).run l).1

section

variable (bridge : Bridge σ) (m : Module) (f : Function)

theorem logical_fresh {symbol : String} {l : Locator σ} (fresh : l.names.find? (·.1 == symbol) = none) :
    ∃ name found state, (logical bridge symbol).run l = (name, ⟨l.suffixes, (symbol, name) :: l.names, found, state⟩) := by
  simp only [logical, run_bind]
  split
  · next known => cases known.symm.trans fresh
  · exact ⟨_, _, _, rfl⟩

theorem knows_of_find? {l : Locator σ} {symbol : String} {entry : String × String}
    (found : l.names.find? (·.1 == symbol) = some entry) : l.Knows symbol entry.2 := by
  have same : entry.1 = symbol := by simpa using List.find?_some found
  rw [Knows, found, ← same]

theorem logical_knows (symbol : String) (l : Locator σ) :
    ((logical bridge symbol).run l).2.Knows symbol ((logical bridge symbol).run l).1 := by
  cases known : l.names.find? (·.1 == symbol) with
  | some entry =>
    rw [logical_known (knows_of_find? known)]
    exact knows_of_find? known
  | none =>
    obtain ⟨name, found, state, asked⟩ := logical_fresh bridge known
    rw [asked]
    exact List.find?_cons_of_pos (beq_self_eq_true symbol)

theorem logical_extends (before : Locator σ) (symbol : String) : Keeps (·.Extends before) (logical bridge symbol) := by
  intro l grown other name known
  have still := grown other name known
  cases fresh : l.names.find? (·.1 == symbol) with
  | some entry =>
    rw [logical_known (knows_of_find? fresh)]
    exact still
  | none =>
    obtain ⟨given, found, state, asked⟩ := logical_fresh bridge fresh
    have different : symbol ≠ other := by
      rintro rfl
      exact nomatch fresh.symm.trans still
    rw [asked]
    exact (List.find?_cons_of_neg (by simpa using different)).trans still

variable {bridge m f}

/-- The answer of any moment is the answer of every later one. -/
theorem nameAt_later {l later : Locator σ} {site : CallSite}
    (grown : later.Extends ((calleeName bridge m f site).run l).2) :
    nameAt bridge m f later site = ((calleeName bridge m f site).run l).1 := by
  rw [nameAt]
  unfold calleeName at grown ⊢
  split at grown
  · next target _ =>
    have known := grown _ _ (logical_knows bridge target.name l)
    rw [logical_known known]
  · rfl

/-- A search stops at the first call site that passes, judged by what any later locator knows. -/
theorem matchSites_eq {kind : CallKind} {test : CallSite → String → Bool} {sites : List CallSite} {l later : Locator σ}
    (grown : later.Extends ((matchSites bridge m f kind test sites).run l).2) :
    ((matchSites bridge m f kind test sites).run l).1 = sites.find? fun site =>
      site.accepts kind && (nameAt bridge m f later site != "" && test site (nameAt bridge m f later site)) := by
  induction sites generalizing l with
  | nil => rfl
  | cons site rest ih =>
    rw [matchSites] at grown ⊢
    by_cases accepted : site.accepts kind = true
    · rw [if_neg (by simp [accepted]), run_bind] at grown ⊢
      have named : nameAt bridge m f later site = ((calleeName bridge m f site).run l).1 := by
        apply nameAt_later
        refine grown.trans ?_
        split
        · exact .refl _
        · exact matchSites_keeps (logical_extends bridge _) m f kind test rest _ (.refl _)
      rw [List.find?_cons, accepted, Bool.true_and, named]
      split at grown
      · next passes =>
        rw [if_pos passes, passes]
        rfl
      · next fails =>
        rw [if_neg fails, eq_false_of_ne_true fails]
        exact ih grown
    · rw [if_pos (by simpa using accepted)] at grown ⊢
      rw [List.find?_cons, eq_false_of_ne_true accepted, Bool.false_and]
      exact ih grown

theorem matchSites_refused {kind : CallKind} {test : CallSite → String → Bool} {sites : List CallSite}
    (refused : ∀ site ∈ sites, site.accepts kind = false) (l : Locator σ) :
    (matchSites bridge m f kind test sites).run l = (none, l) := by
  induction sites with
  | nil => rfl
  | cons site rest ih =>
    rw [matchSites, if_pos (by simp [refused site List.mem_cons_self])]
    exact ih fun other listed => refused other (List.mem_cons_of_mem _ listed)

theorem matchSites_idle {kind : CallKind} {test : CallSite → String → Bool} {sites : List CallSite} {l : Locator σ}
    (known : ∀ site ∈ sites, ((calleeName bridge m f site).run l).2 = l) :
    ((matchSites bridge m f kind test sites).run l).2 = l := by
  induction sites with
  | nil => rfl
  | cons site rest ih =>
    have behind := ih fun other listed => known other (List.mem_cons_of_mem _ listed)
    rw [matchSites]
    split
    · exact behind
    · rw [run_bind, known site List.mem_cons_self]
      split
      · rfl
      · exact behind

theorem matchSites_missed {kind : CallKind} {test : String → Bool} {sites : List CallSite} {l : Locator σ} {name : String}
    (named : ∀ site ∈ sites, (calleeName bridge m f site).run l = (name, l)) (missed : (name != "" && test name) = false) :
    (matchSites bridge m f kind (fun _ name => test name) sites).run l = (none, l) := by
  have idle : ((matchSites bridge m f kind (fun _ name => test name) sites).run l).2 = l :=
    matchSites_idle fun site listed => congrArg Prod.snd (named site listed)
  have grown : l.Extends ((matchSites bridge m f kind (fun _ name => test name) sites).run l).2 := idle.symm ▸ .refl l
  refine Prod.ext ((matchSites_eq grown).trans (List.find?_eq_none.mpr fun site listed => ?_)) idle
  rw [nameAt, named site listed, missed, Bool.and_false]
  exact Bool.false_ne_true

theorem matchSites_alike {kind : CallKind} (test : String → Bool) {sites : List CallSite}
    (accepted : ∀ site ∈ sites, site.accepts kind = true) {target : Function}
    (called : ∀ site ∈ sites, m.calledFunction? f site = some target) (some : sites ≠ []) {l l' : Locator σ} {name : String}
    (asked : (logical bridge target.name).run l = (name, l')) :
    (matchSites bridge m f kind (fun _ name => test name) sites).run l =
      (if name != "" && test name then sites.head? else none, l') := by
  have known : l'.Knows target.name name := by
    have knows := logical_knows bridge target.name l
    rwa [asked] at knows
  have again : ∀ site ∈ sites, (calleeName bridge m f site).run l' = (name, l') := fun site listed => by
    simpa only [calleeName, called site listed] using logical_known known
  cases sites with
  | nil => exact absurd rfl some
  | cons site rest =>
    have first : (calleeName bridge m f site).run l = (name, l') := by
      simpa only [calleeName, called site List.mem_cons_self] using asked
    rw [matchSites, if_neg (by simp [accepted site List.mem_cons_self]), run_bind, first]
    dsimp only
    split
    · rfl
    · next missed =>
      exact matchSites_missed (fun other listed => again other (List.mem_cons_of_mem _ listed)) (eq_false_of_ne_true missed)

end

end Locator

/-- The first call of a logical name, invokes ahead of ordinary calls, by what a locator now knows. -/
def firstCall (bridge : Bridge σ) (m : Module) (f : Function) (l : Locator σ) (name : String) : Option CallSite :=
  let called (kind : CallKind) := f.callSites.find? fun site =>
    site.accepts kind && (l.nameAt bridge m f site != "" && l.nameAt bridge m f site == name)
  (called .exceptional).or (called .ordinary)

/-- What the search for a marshalling call comes back with is the first call of the name, as it is known later. -/
theorem findCall_eq {bridge : Bridge σ} {m : Module} {f : Function} {name : String} {l later : Locator σ}
    (grown : later.Extends ((MarshallingPlan.findCall bridge m f name).run l).2) :
    ((MarshallingPlan.findCall bridge m f name).run l).1 = firstCall bridge m f later name := by
  have search : ∀ {kind : CallKind} {l : Locator σ},
      later.Extends ((Locator.findByName bridge m f name kind).run l).2 →
      ((Locator.findByName bridge m f name kind).run l).1 = f.callSites.find? fun site =>
        site.accepts kind && (later.nameAt bridge m f site != "" && later.nameAt bridge m f site == name) :=
    fun grown => Locator.matchSites_eq grown
  rw [MarshallingPlan.findCall, run_bind] at grown ⊢
  rw [firstCall]
  split at grown
  · next site found =>
    rw [search grown] at found
    dsimp only
    rw [found]
    rfl
  · next missing =>
    rw [search (grown.trans (Locator.matchSites_keeps (Locator.logical_extends bridge _) m f .ordinary _ _ _ (.refl _)))] at missing
    dsimp only
    rw [missing, Option.none_or]
    exact search grown

theorem findCall_known {bridge : Bridge σ} {m : Module} {f : Function} {l : Locator σ}
    (known : ∀ site ∈ f.callSites, ((Locator.calleeName bridge m f site).run l).2 = l) (name : String) :
    (MarshallingPlan.findCall bridge m f name).run l = (firstCall bridge m f l name, l) := by
  have idle : ∀ kind, ((Locator.findByName bridge m f name kind).run l).2 = l := fun kind => Locator.matchSites_idle known
  have still : ((MarshallingPlan.findCall bridge m f name).run l).2 = l := by
    rw [MarshallingPlan.findCall, run_bind, idle .exceptional]
    split
    · rfl
    · exact idle .ordinary
  exact Prod.ext (findCall_eq (still.symm ▸ .refl l)) still

theorem findCall_alike {bridge : Bridge σ} {m : Module} {f target : Function}
    (ordinary : ∀ site ∈ f.callSites, site.kind = .ordinary)
    (called : ∀ site ∈ f.callSites, m.calledFunction? f site = some target) (some : f.callSites ≠ []) {l l' : Locator σ}
    {name : String} (asked : (Locator.logical bridge target.name).run l = (name, l')) (wanted : String) :
    (MarshallingPlan.findCall bridge m f wanted).run l =
      (if name != "" && name == wanted then f.callSites.head? else none, l') := by
  have exceptional : (Locator.findByName bridge m f wanted .exceptional).run l = (none, l) :=
    Locator.matchSites_refused (fun site listed => by simp [CallSite.accepts, ordinary site listed]) l
  rw [MarshallingPlan.findCall, run_bind, exceptional]
  exact Locator.matchSites_alike (· == wanted)
    (fun site listed => by simp [CallSite.accepts, ordinary site listed]) called some asked

theorem firstCall_named {bridge : Bridge σ} {m : Module} {f : Function} {l : Locator σ} {name : String} {site : CallSite}
    (first : firstCall bridge m f l name = some site) :
    site ∈ f.callSites ∧ l.nameAt bridge m f site ≠ "" ∧ l.nameAt bridge m f site = name := by
  have passed : ∀ {kind : CallKind}, (f.callSites.find? fun site => site.accepts kind &&
      (l.nameAt bridge m f site != "" && l.nameAt bridge m f site == name)) = some site →
      site ∈ f.callSites ∧ l.nameAt bridge m f site ≠ "" ∧ l.nameAt bridge m f site = name := by
    intro kind found
    have test := List.find?_some found
    simp only [Bool.and_eq_true, bne_iff_ne, beq_iff_eq] at test
    exact ⟨List.mem_of_find?_eq_some found, test.2⟩
  rcases Option.or_eq_some_iff.mp first with exceptional | ⟨_, ordinary⟩
  · exact passed exceptional
  · exact passed ordinary

end CallFusion
