import CallFusion.Proofs.Merge.Naming
import Mathlib.Data.List.Induction
import Mathlib.Data.List.Nodup

/-!
One view of names. Whatever is looked up with one locator, in whatever order, the answers are those of one naming of
symbols, and the bridge is asked for each symbol that was needed, once, when it is needed first.
-/

namespace CallFusion.Locator

open Ir

variable {σ : Type}

/-- What a locator is asked. -/
inductive Lookup where
  | logical (symbol : String)
  | calleeName (m : Module) (f : Function) (site : CallSite)
  | findMatch (m : Module) (f : Function) (kind : CallKind) (test : CallSite → String → Bool)
  | findByStart (m : Module) (f : Function) (start : String) (kind : CallKind)
  | findByName (m : Module) (f : Function) (wanted : String) (kind : CallKind)

inductive Answer where
  | name (text : String)
  | site (found : Option CallSite)

def Lookup.run (bridge : Bridge σ) : Lookup → StateM (Locator σ) Answer
  | logical symbol => return .name (← Locator.logical bridge symbol)
  | calleeName m f site => return .name (← Locator.calleeName bridge m f site)
  | findMatch m f kind test => return .site (← Locator.findMatch bridge m f kind test)
  | findByStart m f start kind => return .site (← Locator.findByStart bridge m f start kind)
  | findByName m f wanted kind => return .site (← Locator.findByName bridge m f wanted kind)

/-! ### Answers by a view of names -/

section

variable (view : String → String) (m : Module) (f : Function) (kind : CallKind) (test : CallSite → String → Bool)

def symbolAt? (site : CallSite) : Option String := (m.calledFunction? f site).map (·.name)

def nameOf (site : CallSite) : String := ((symbolAt? m f site).map view).getD ""

def passes (site : CallSite) : Bool :=
  site.accepts kind && (nameOf view m f site != "" && test site (nameOf view m f site))

/-- The symbols of the calls that a search looks at: those of its kind, up to the first that passes. -/
def sought (sites : List CallSite) : List String :=
  ((sites.takeWhile (fun site => !passes view m f kind test site) ++ (sites.find? (passes view m f kind test)).toList).filter
    (·.accepts kind)).filterMap (symbolAt? m f)

end

def Lookup.needs (view : String → String) : Lookup → List String
  | logical symbol => [symbol]
  | calleeName m f site => (symbolAt? m f site).toList
  | findMatch m f kind test => sought view m f kind test f.callSites
  | findByStart m f start kind => sought view m f kind (fun _ name => name.startsWith start) f.callSites
  | findByName m f wanted kind => sought view m f kind (fun _ name => name == wanted) f.callSites

def Lookup.under (view : String → String) : Lookup → Answer
  | logical symbol => .name (view symbol)
  | calleeName m f site => .name (nameOf view m f site)
  | findMatch m f kind test => .site (f.callSites.find? (passes view m f kind test))
  | findByStart m f start kind => .site (f.callSites.find? (passes view m f kind fun _ name => name.startsWith start))
  | findByName m f wanted kind => .site (f.callSites.find? (passes view m f kind fun _ name => name == wanted))

/-- Asks a bridge for symbols, one after the other. -/
def questions (bridge : Bridge σ) (suffixes : List String) (symbols : List String) : StateM σ (List (String × Reply)) :=
  symbols.mapM fun symbol => return (symbol, ← bridge (stripWith suffixes symbol))

/-- What a symbol is called after a reply: the name in it, else the symbol without its suffix, less a hash. -/
def named (suffixes : List String) (q : String × Reply) : String :=
  Symbol.stripHash (if q.2.fault.isSome || q.2.name.isEmpty then stripWith suffixes q.1 else q.2.name)

def failure? (suffixes : List String) (q : String × Reply) : Option Diagnostic :=
  q.2.fault.map fun fault => .unavailable ("could not demangle '" ++ stripWith suffixes q.1 ++ "': " ++ fault.message)

/-! ### What a lookup asks for -/

def ask (bridge : Bridge σ) (l : Locator σ) (symbols : List String) : Locator σ :=
  symbols.foldl (fun l symbol => ((logical bridge symbol).run l).2) l

/-- The names that a locator would give now. -/
def viewOf (bridge : Bridge σ) (l : Locator σ) (symbol : String) : String := ((logical bridge symbol).run l).1

section

variable {bridge : Bridge σ} {m : Module} {f : Function} {kind : CallKind} {test : CallSite → String → Bool}
  {sites : List CallSite} {l later : Locator σ}

theorem ask_append (symbols more : List String) : l.ask bridge (symbols ++ more) = (l.ask bridge symbols).ask bridge more :=
  List.foldl_append

theorem nameOf_viewOf (site : CallSite) : nameOf (viewOf bridge l) m f site = nameAt bridge m f l site := by
  rw [nameOf, symbolAt?, nameAt, calleeName]
  cases m.calledFunction? f site with
  | none => rfl
  | some target => rfl

theorem calleeName_ask (site : CallSite) :
    ((calleeName bridge m f site).run l).2 = l.ask bridge (symbolAt? m f site).toList := by
  rw [symbolAt?, calleeName]
  cases m.calledFunction? f site with
  | none => rfl
  | some target => rfl

variable {view : String → String} {site : CallSite} {rest : List CallSite}

theorem sought_refused (refused : site.accepts kind = false) :
    sought view m f kind test (site :: rest) = sought view m f kind test rest := by
  have fails : passes view m f kind test site = false := by simp [passes, refused]
  simp [sought, fails, refused]

theorem sought_passes (accepted : site.accepts kind = true) (here : passes view m f kind test site = true) :
    sought view m f kind test (site :: rest) = (symbolAt? m f site).toList := by
  cases symbol : symbolAt? m f site with
  | none => simp [sought, here, accepted, symbol]
  | some name => simp [sought, here, accepted, symbol]

theorem sought_fails (accepted : site.accepts kind = true) (here : passes view m f kind test site = false) :
    sought view m f kind test (site :: rest) = (symbolAt? m f site).toList ++ sought view m f kind test rest := by
  cases symbol : symbolAt? m f site with
  | none => simp [sought, here, accepted, symbol]
  | some name => simp [sought, here, accepted, symbol]

theorem calleeName_extends (before : Locator σ) (site : CallSite) : Keeps (·.Extends before) (calleeName bridge m f site) :=
  calleeName_keeps (logical_extends bridge before) m f site

theorem matchSites_ask (grown : later.Extends ((matchSites bridge m f kind test sites).run l).2) :
    ((matchSites bridge m f kind test sites).run l).2 =
      l.ask bridge (sought (viewOf bridge later) m f kind test sites) := by
  induction sites generalizing l with
  | nil => rfl
  | cons site rest ih =>
    rw [matchSites] at grown ⊢
    cases accepted : site.accepts kind with
    | false =>
      rw [if_pos (by simp [accepted])] at grown ⊢
      rw [sought_refused accepted]
      exact ih grown
    | true =>
      rw [if_neg (by simp [accepted]), run_bind] at grown ⊢
      have named : nameOf (viewOf bridge later) m f site = ((calleeName bridge m f site).run l).1 := by
        rw [nameOf_viewOf]
        apply nameAt_later
        refine grown.trans ?_
        split
        · exact .refl _
        · exact matchSites_keeps (logical_extends bridge _) m f kind test rest _ (.refl _)
      split at grown
      · next here =>
        have passed : passes (viewOf bridge later) m f kind test site = true := by rw [passes, accepted, named, here]; rfl
        rw [if_pos here, sought_passes accepted passed]
        exact calleeName_ask site
      · next here =>
        have failed : passes (viewOf bridge later) m f kind test site = false := by
          rw [passes, accepted, named, eq_false_of_ne_true here]; rfl
        rw [if_neg here, sought_fails accepted failed, ask_append, ← calleeName_ask]
        exact ih grown

theorem findMatch_run (grown : later.Extends ((findMatch bridge m f kind test).run l).2) :
    (findMatch bridge m f kind test).run l = (f.callSites.find? (passes (viewOf bridge later) m f kind test),
      l.ask bridge (sought (viewOf bridge later) m f kind test f.callSites)) := by
  refine Prod.ext ?_ (matchSites_ask grown)
  refine (matchSites_eq grown).trans (congrArg (List.find? · f.callSites) (funext fun site => ?_))
  rw [passes, nameOf_viewOf]

/-- One lookup, by the names that any later locator gives. -/
theorem Lookup.run_eq (lookup : Lookup) (grown : later.Extends ((lookup.run bridge).run l).2) :
    (lookup.run bridge).run l = (lookup.under (viewOf bridge later), l.ask bridge (lookup.needs (viewOf bridge later))) := by
  cases lookup with
  | logical symbol =>
    have known : (Locator.logical bridge symbol).run later = (((Locator.logical bridge symbol).run l).1, later) :=
      logical_known (grown _ _ (logical_knows bridge symbol l))
    refine Prod.ext ?_ rfl
    change Answer.name ((Locator.logical bridge symbol).run l).1 = .name (viewOf bridge later symbol)
    rw [viewOf, known]
  | calleeName m f site =>
    have known : nameOf (viewOf bridge later) m f site = ((Locator.calleeName bridge m f site).run l).1 :=
      (nameOf_viewOf site).trans (nameAt_later grown)
    exact Prod.ext (congrArg Answer.name known.symm) (calleeName_ask site)
  | findMatch m f kind test =>
    exact congrArg (fun r : Option CallSite × Locator σ => (Answer.site r.1, r.2)) (findMatch_run grown)
  | findByStart m f start kind =>
    exact congrArg (fun r : Option CallSite × Locator σ => (Answer.site r.1, r.2)) (findMatch_run grown)
  | findByName m f wanted kind =>
    exact congrArg (fun r : Option CallSite × Locator σ => (Answer.site r.1, r.2)) (findMatch_run grown)

theorem Lookup.run_extends (before : Locator σ) (lookup : Lookup) : Keeps (·.Extends before) (lookup.run bridge) := by
  cases lookup with
  | logical symbol => exact (logical_extends bridge before symbol).bind fun _ => .pure _
  | calleeName m f site => exact (calleeName_extends before site).bind fun _ => .pure _
  | _ => exact (matchSites_keeps (logical_extends bridge before) _ _ _ _ _).bind fun _ => .pure _

theorem lookups_extend (before : Locator σ) (lookups : List Lookup) :
    Keeps (·.Extends before) (lookups.mapM (Lookup.run bridge)) := by
  induction lookups with
  | nil => exact .pure _
  | cons lookup rest ih =>
    rw [List.mapM_cons]
    exact (Lookup.run_extends before lookup).bind fun _ => ih.bind fun _ => .pure _

theorem lookups_run {lookups : List Lookup} (grown : later.Extends ((lookups.mapM (Lookup.run bridge)).run l).2) :
    (lookups.mapM (Lookup.run bridge)).run l = (lookups.map (Lookup.under (viewOf bridge later)),
      l.ask bridge (lookups.flatMap (Lookup.needs (viewOf bridge later)))) := by
  induction lookups generalizing l with
  | nil => rfl
  | cons lookup rest ih =>
    rw [List.mapM_cons] at grown ⊢
    rw [run_bind] at grown ⊢
    have first : (lookup.run bridge).run l = _ :=
      lookup.run_eq (grown.trans (lookups_extend _ rest _ (.refl _)))
    rw [first] at grown ⊢
    rw [run_bind, ih grown, List.flatMap_cons, ask_append]
    rfl

end

/-! ### What the bridge is asked -/

section

variable {bridge : Bridge σ} {suffixes symbols : List String} {symbol : String} {s : σ}

theorem eraseDups_concat (symbols : List String) (symbol : String) :
    (symbols ++ [symbol]).eraseDups = if symbol ∈ symbols then symbols.eraseDups else symbols.eraseDups ++ [symbol] := by
  rw [List.eraseDups_append]
  split
  · next again => simp [List.removeAll, again]
  · next fresh => simp [List.removeAll, fresh, List.eraseDups_cons]

theorem eraseDups_nodup (symbols : List String) : symbols.eraseDups.Nodup := by
  induction symbols using List.reverseRecOn with
  | nil => exact List.nodup_nil
  | append_singleton symbols symbol ih =>
    rw [eraseDups_concat]
    split
    · exact ih
    · next fresh =>
      rw [← List.concat_eq_append]
      exact ih.concat (by simpa using fresh)

theorem questions_concat (symbols : List String) (symbol : String) (s : σ) :
    (questions bridge suffixes (symbols ++ [symbol])).run s =
      (((questions bridge suffixes symbols).run s).1 ++
          [(symbol, ((bridge (stripWith suffixes symbol)).run ((questions bridge suffixes symbols).run s).2).1)],
        ((bridge (stripWith suffixes symbol)).run ((questions bridge suffixes symbols).run s).2).2) := by
  rw [questions, List.mapM_append]
  rfl

theorem questions_symbols (symbols : List String) (s : σ) :
    ((questions bridge suffixes symbols).run s).1.map (·.1) = symbols := by
  induction symbols using List.reverseRecOn with
  | nil => rfl
  | append_singleton symbols symbol ih => rw [questions_concat, List.map_append, ih]; rfl

/-- The locator that has just these questions behind it. -/
def settled (suffixes : List String) (asked : List (String × Reply) × σ) : Locator σ where
  suffixes := suffixes
  names := (asked.1.map fun q => (q.1, named suffixes q)).reverse
  diagnostics := asked.1.filterMap (failure? suffixes)
  bridge := asked.2

theorem settled_find? {asked : List (String × Reply) × σ} : (settled suffixes asked).names.find? (·.1 == symbol) = none ↔
    symbol ∉ asked.1.map (·.1) := by
  simp only [settled, List.find?_eq_none, List.mem_reverse, List.forall_mem_map, beq_iff_eq]
  simp only [List.mem_map, not_exists, not_and]

theorem logical_new {l : Locator σ} (fresh : l.names.find? (·.1 == symbol) = none) :
    let asked := (bridge (stripWith l.suffixes symbol)).run l.bridge
    (logical bridge symbol).run l = (named l.suffixes (symbol, asked.1), { l with
      names := (symbol, named l.suffixes (symbol, asked.1)) :: l.names
      diagnostics := l.diagnostics ++ (failure? l.suffixes (symbol, asked.1)).toList
      bridge := asked.2 }) := by
  intro asked
  have here : (get : StateM (Locator σ) (Locator σ)).run l = (l, l) := rfl
  simp only [logical, run_bind, here]
  split
  · next known => cases known.symm.trans fresh
  · have reply : (bridge (l.stripSuffix symbol)).run l.bridge = asked := rfl
    rw [reply, failure?]
    obtain ⟨⟨name, fault⟩, state⟩ := asked
    cases fault with
    | none => rfl
    | some fault => rfl

theorem logical_settled {asked : List (String × Reply) × σ} (fresh : symbol ∉ asked.1.map (·.1)) :
    ((logical bridge symbol).run (settled suffixes asked)).2 =
      settled suffixes (asked.1 ++ [(symbol, ((bridge (stripWith suffixes symbol)).run asked.2).1)],
        ((bridge (stripWith suffixes symbol)).run asked.2).2) := by
  rw [logical_new (settled_find?.mpr fresh)]
  cases noted : failure? suffixes (symbol, ((bridge (stripWith suffixes symbol)).run asked.2).1) with
  | none => simp [settled, noted]
  | some found => simp [settled, noted]

theorem ask_settled (symbols : List String) (s : σ) : (settled suffixes ([], s)).ask bridge symbols =
    settled suffixes ((questions bridge suffixes symbols.eraseDups).run s) := by
  induction symbols using List.reverseRecOn with
  | nil => rfl
  | append_singleton symbols symbol ih =>
    rw [ask_append, ih, eraseDups_concat]
    split
    · next again =>
      cases found : (settled suffixes ((questions bridge suffixes symbols.eraseDups).run s)).names.find? (·.1 == symbol) with
      | none =>
        have missing := settled_find?.mp found
        rw [questions_symbols, List.mem_eraseDups] at missing
        exact absurd again missing
      | some entry => exact congrArg Prod.snd (logical_known (knows_of_find? found))
    · next fresh =>
      rw [questions_concat]
      exact logical_settled (by simpa [questions_symbols] using fresh)

theorem viewOf_settled {asked : List (String × Reply) × σ} (distinct : (asked.1.map (·.1)).Nodup) {q : String × Reply}
    (listed : q ∈ asked.1) : viewOf bridge (settled suffixes asked) q.1 = named suffixes q := by
  cases found : (settled suffixes asked).names.find? (·.1 == q.1) with
  | none => exact absurd (List.mem_map_of_mem listed) (settled_find?.mp found)
  | some entry =>
    have known : (settled suffixes asked).Knows q.1 entry.2 := knows_of_find? found
    have member : (q.1, entry.2) ∈ (settled suffixes asked).names := List.mem_of_find?_eq_some known
    obtain ⟨r, listed', same⟩ := List.mem_map.mp (List.mem_reverse.mp member)
    obtain ⟨symbol, name⟩ := Prod.mk.inj same
    obtain rfl : r = q := List.inj_on_of_nodup_map distinct listed' listed symbol
    rw [viewOf, logical_known known, name]

/-- Whatever is looked up, every answer is one by the same view of names; the bridge is left as it is after one question for
each symbol whose name was needed, in the order of first need; and each failed question is reported, in that order. -/
theorem lookups_agree (bridge : Bridge σ) (suffixes : List String) (s : σ) (lookups : List Lookup) :
    let kept := suffixes.filter (· != "")
    let looked := (lookups.mapM (Lookup.run bridge)).run (Locator.new suffixes s)
    ∃ view : String → String,
      let symbols := (lookups.flatMap (Lookup.needs view)).eraseDups
      let asked := (questions bridge kept symbols).run s
      looked.1 = lookups.map (Lookup.under view) ∧ symbols.Nodup ∧ looked.2.bridge = asked.2 ∧
      looked.2.diagnostics = asked.1.filterMap (failure? kept) ∧ ∀ q ∈ asked.1, view q.1 = named kept q := by
  intro kept looked
  have run : looked = (lookups.map (Lookup.under (viewOf bridge looked.2)),
      (Locator.new suffixes s).ask bridge (lookups.flatMap (Lookup.needs (viewOf bridge looked.2)))) :=
    lookups_run (.refl _)
  refine ⟨viewOf bridge looked.2, ?_⟩
  intro symbols asked
  have last : looked.2 = settled kept asked := (congrArg Prod.snd run).trans (ask_settled _ s)
  have distinct : symbols.Nodup := eraseDups_nodup _
  refine ⟨congrArg Prod.fst run, distinct, congrArg Locator.bridge last, congrArg Locator.diagnostics last, ?_⟩
  intro q listed
  rw [last]
  exact viewOf_settled (by rwa [questions_symbols]) listed

end

end CallFusion.Locator
