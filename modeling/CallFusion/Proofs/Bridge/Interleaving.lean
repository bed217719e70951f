import CallFusion.Bridge.Cached

/-!
Calls that share one memory and one shelf, in any order of their steps. Where the bridge gives a symbol one name or fails,
and the shelf holds that name or none, no order of steps brings in another name: not into an answer, not into the memory
and not onto the shelf.
-/

namespace CallFusion

variable {σ : Type}

/-- What happens while calls are under way: one begins, the call at a position takes its next step, or the world outside
changes, as where a service goes down and comes back. -/
inductive CallEvent (σ : Type) where
  | start (symbol : String)
  | advance (position : Nat)
  | outside (change : σ → σ)

/-- Calls under way, in the order in which they began, and the memory they share. -/
structure CallTraffic (σ : Type) where
  memory : Memory σ
  calls : List (String × CallPhase) := []

namespace CachedBridge

def happen (c : CachedBridge σ) (t : CallTraffic σ) : CallEvent σ → CallTraffic σ
  | .start symbol => { t with calls := t.calls ++ [(symbol, .peek)] }
  | .advance position =>
    match t.calls[position]? with
    | none => t
    | some (symbol, phase) =>
      let (phase, memory) := (c.step symbol phase).run t.memory
      ⟨memory, t.calls.set position (symbol, phase)⟩
  | .outside change => { t with memory := { t.memory with inner := change t.memory.inner } }

theorem happen_idle {c : CachedBridge σ} {t : CallTraffic σ} {position : Nat} (there : t.calls[position]? = none) :
    c.happen t (.advance position) = t := by
  simp only [happen, there]

theorem happen_advance {c : CachedBridge σ} {t : CallTraffic σ} {position : Nat} {symbol : String} {phase : CallPhase}
    (there : t.calls[position]? = some (symbol, phase)) : c.happen t (.advance position) =
      ⟨((c.step symbol phase).run t.memory).2, t.calls.set position (symbol, ((c.step symbol phase).run t.memory).1)⟩ := by
  simp only [happen, there]
  rfl

def play (c : CachedBridge σ) (t : CallTraffic σ) (events : List (CallEvent σ)) : CallTraffic σ :=
  events.foldl c.happen t

end CachedBridge

/-! ### What is asked of bridge, shelf and world -/

section

variable (kept : σ → String → String → Prop) (answer : String → String)

/-- A bridge that gives each symbol one name or fails, and a shelf on which only saving puts something. `kept` says which
names lie on the shelf. Looking up and saving may fail at any time, and the shelf may lose what it holds. -/
structure CachedBridge.Steady (c : CachedBridge σ) : Prop where
  answers : ∀ symbol state, ((c.next symbol).run state).1.fault = none → ((c.next symbol).run state).1.name = answer symbol
  asking : ∀ symbol state s n, kept ((c.next symbol).run state).2 s n → kept state s n
  found : ∀ shelf ∈ c.shelf, ∀ symbol state name,
    ((shelf.lookup symbol).run state).1 = .ok (some name) → kept state symbol name
  looking : ∀ shelf ∈ c.shelf, ∀ symbol state s n, kept ((shelf.lookup symbol).run state).2 s n → kept state s n
  saving : ∀ shelf ∈ c.shelf, ∀ symbol name state s n,
    kept ((shelf.save symbol name).run state).2 s n → kept state s n ∨ (s = symbol ∧ n = name)

/-- The world puts nothing on the shelf. -/
def CallEvent.Harmless : CallEvent σ → Prop
  | .outside change => ∀ state s n, kept (change state) s n → kept state s n
  | _ => True

/-- Only right names are remembered and shelved. -/
structure Memory.Right (m : Memory σ) : Prop where
  names : ∀ pair ∈ m.names, pair.2 = answer pair.1
  shelf : ∀ symbol name, kept m.inner symbol name → name = answer symbol

/-- A call carries no other name than the right one. -/
def CallPhase.Right (symbol : String) : CallPhase → Prop
  | .peek | .consult | .ask => True
  | .remember name _ | .shelve name => name = answer symbol
  | .finished reply => reply.fault = none → reply.name = answer symbol

structure CallTraffic.Right (t : CallTraffic σ) : Prop where
  memory : t.memory.Right kept answer
  calls : ∀ call ∈ t.calls, call.2.Right answer call.1

/-- A call that only looks into the memory: it has not begun to, or found the right name there. -/
def CallPhase.Recalls (symbol : String) (phase : CallPhase) : Prop :=
  phase = .peek ∨ phase = .finished ⟨answer symbol, none⟩

end

/-! ### One step of a call -/

namespace Memory

theorem name?_eq_some {m : Memory σ} {symbol name : String} (found : m.name? symbol = some name) :
    (symbol, name) ∈ m.names := by
  obtain ⟨pair, hit, rfl⟩ := Option.map_eq_some_iff.mp found
  have same : pair.1 = symbol := by simpa using List.find?_some hit
  have listed : pair ∈ m.names := List.mem_of_find?_eq_some hit
  rwa [← same]

theorem name?_isSome {m : Memory σ} {symbol : String} :
    (m.name? symbol).isSome = true ↔ ∃ pair ∈ m.names, pair.1 = symbol := by
  simp [name?]

end Memory

namespace CachedBridge

variable (c : CachedBridge σ) {symbol name : String} {phase : CallPhase} {m : Memory σ}

theorem step_peek : (c.step symbol .peek).run m =
    ((m.name? symbol).elim .consult fun name => .finished ⟨name, none⟩, m) := by
  simp only [step, bind_pure_comp, StateT.run_map]
  cases h : m.name? symbol with
  | none => simp [h]; rfl
  | some name => simp [h]; rfl

theorem step_ask : (c.step symbol .ask).run m =
    (if ((c.next symbol).run m.inner).1.fault.isSome then .finished ((c.next symbol).run m.inner).1
      else .remember ((c.next symbol).run m.inner).1.name true,
      { m with inner := ((c.next symbol).run m.inner).2 }) := by
  have opened : (c.step symbol .ask).run m =
      (if ((c.next symbol).run m.inner).1.fault.isSome then pure (.finished ((c.next symbol).run m.inner).1)
        else pure (.remember ((c.next symbol).run m.inner).1.name true) : StateM (Memory σ) CallPhase).run
          { m with inner := ((c.next symbol).run m.inner).2 } := rfl
  rw [opened]
  split <;> rfl

theorem step_remember {fresh : Bool} : (c.step symbol (.remember name fresh)).run m =
    (if fresh then .shelve name else .finished ⟨name, none⟩, m.remember symbol name) := rfl

theorem step_finished {reply : Reply} : (c.step symbol (.finished reply)).run m = (.finished reply, m) := rfl

theorem step_consult_bare (bare : c.shelf = none) : (c.step symbol .consult).run m = (.ask, m) := by
  simp only [step, consult, bare]
  rfl

theorem step_consult {shelf : Shelf σ} (there : c.shelf = some shelf) : (c.step symbol .consult).run m =
    (match ((shelf.lookup symbol).run m.inner).1 with
      | .ok (some name) => .remember name false
      | _ => .ask, { m with inner := ((shelf.lookup symbol).run m.inner).2 }) := by
  have opened : (c.step symbol .consult).run m =
      (match ((shelf.lookup symbol).run m.inner).1 with
        | .ok (some name) => pure (.remember name false)
        | _ => pure .ask : StateM (Memory σ) CallPhase).run
          { m with inner := ((shelf.lookup symbol).run m.inner).2 } := by
    simp only [step, consult, there]
    rfl
  rw [opened]
  split <;> rfl

theorem step_shelve_bare (bare : c.shelf = none) : (c.step symbol (.shelve name)).run m = (.finished ⟨name, none⟩, m) := by
  simp only [step, shelve, bare]
  rfl

theorem step_shelve {shelf : Shelf σ} (there : c.shelf = some shelf) : (c.step symbol (.shelve name)).run m =
    (.finished ⟨name, none⟩, { m with inner := ((shelf.save symbol name).run m.inner).2 }) := by
  simp only [step, shelve, there]
  rfl

end CachedBridge

/-! ### A call on its own -/

def CallPhase.stepsLeft : CallPhase → Nat
  | .peek => 5
  | .consult => 4
  | .ask => 3
  | .remember .. => 2
  | .shelve _ => 1
  | .finished _ => 0

namespace CachedBridge

variable {c : CachedBridge σ} {symbol : String} {phase : CallPhase}

theorem step_stepsLeft (m : Memory σ) : ((c.step symbol phase).run m).1.stepsLeft ≤ phase.stepsLeft - 1 := by
  cases phase with
  | peek =>
    rw [step_peek]
    cases m.name? symbol <;> simp [CallPhase.stepsLeft]
  | consult =>
    cases there : c.shelf with
    | none => rw [step_consult_bare c there]; exact Nat.le_refl _
    | some shelf =>
      rw [step_consult c there]
      dsimp only
      split <;> simp [CallPhase.stepsLeft]
  | ask =>
    rw [step_ask]
    dsimp only
    split <;> simp [CallPhase.stepsLeft]
  | remember name fresh =>
    rw [step_remember]
    cases fresh <;> simp [CallPhase.stepsLeft]
  | shelve name =>
    cases there : c.shelf with
    | none => rw [step_shelve_bare c there]; exact Nat.le_refl _
    | some shelf => rw [step_shelve c there]; exact Nat.le_refl _
  | finished reply => exact Nat.le_refl _

theorem steps_stepsLeft (n : Nat) (m : Memory σ) :
    ((c.steps symbol n phase).run m).1.stepsLeft ≤ phase.stepsLeft - n := by
  induction n generalizing phase m with
  | zero => exact Nat.le_refl _
  | succ n ih =>
    have first : ((c.step symbol phase).run m).1.stepsLeft ≤ phase.stepsLeft - 1 := step_stepsLeft m
    have rest : ((c.steps symbol n ((c.step symbol phase).run m).1).run ((c.step symbol phase).run m).2).1.stepsLeft ≤
        ((c.step symbol phase).run m).1.stepsLeft - n := ih _
    have whole : (c.steps symbol (n + 1) phase).run m =
        (c.steps symbol n ((c.step symbol phase).run m).1).run ((c.step symbol phase).run m).2 := rfl
    rw [whole]
    omega

theorem play_advances (n : Nat) (m : Memory σ) :
    c.play ⟨m, [(symbol, phase)]⟩ (List.replicate n (.advance 0)) =
      ⟨((c.steps symbol n phase).run m).2, [(symbol, ((c.steps symbol n phase).run m).1)]⟩ := by
  induction n generalizing phase m with
  | zero => rfl
  | succ n ih =>
    rw [List.replicate_succ]
    exact ih ((c.step symbol phase).run m).2

/-- A call on its own is one of the orders, and five steps end it. -/
theorem play_alone (c : CachedBridge σ) (symbol : String) (m : Memory σ) :
    c.play ⟨m, []⟩ (.start symbol :: List.replicate 5 (.advance 0)) =
      ⟨((c.bridge symbol).run m).2, [(symbol, .finished ((c.bridge symbol).run m).1)]⟩ := by
  have played : c.play ⟨m, []⟩ (.start symbol :: List.replicate 5 (.advance 0)) =
      ⟨((c.steps symbol 5 .peek).run m).2, [(symbol, ((c.steps symbol 5 .peek).run m).1)]⟩ := play_advances 5 m
  have spent : ((c.steps symbol 5 .peek).run m).1.stepsLeft ≤ 0 := steps_stepsLeft 5 m
  rw [played]
  cases ended : ((c.steps symbol 5 .peek).run m).1 with
  | finished reply =>
    have whole : (c.steps symbol 5 .peek).run m = (.finished reply, ((c.steps symbol 5 .peek).run m).2) := Prod.ext ended rfl
    have called : (c.bridge symbol).run m = (reply, ((c.steps symbol 5 .peek).run m).2) := by
      rw [bridge, StateT.run_bind, whole]
      rfl
    rw [called]
  | _ => simp [ended, CallPhase.stepsLeft] at spent

end CachedBridge

/-! ### Right names -/

section

variable {kept : σ → String → String → Prop} {answer : String → String} {c : CachedBridge σ} {m : Memory σ}
  {symbol name : String} {phase : CallPhase} {t : CallTraffic σ}

theorem Memory.Right.remember (right : m.Right kept answer) (named : name = answer symbol) :
    (m.remember symbol name).Right kept answer := by
  constructor
  · intro pair listed
    rcases List.mem_cons.mp listed with rfl | before
    · exact named
    · exact right.names pair before
  · exact right.shelf

theorem Memory.Right.withInner (right : m.Right kept answer) {inner : σ}
    (shelf : ∀ s n, kept inner s n → kept m.inner s n ∨ n = answer s) :
    ({ m with inner := inner } : Memory σ).Right kept answer := by
  constructor
  · exact right.names
  · intro s n there
    rcases shelf s n there with before | named
    · exact right.shelf s n before
    · exact named

namespace CachedBridge

theorem step_right (steady : c.Steady kept answer) (right : m.Right kept answer) (carried : phase.Right answer symbol) :
    ((c.step symbol phase).run m).2.Right kept answer ∧ ((c.step symbol phase).run m).1.Right answer symbol := by
  cases phase with
  | peek =>
    rw [step_peek]
    refine ⟨right, ?_⟩
    cases found : m.name? symbol with
    | none => trivial
    | some name => exact fun _ => right.names _ (Memory.name?_eq_some found)
  | consult =>
    cases there : c.shelf with
    | none =>
      rw [step_consult_bare c there]
      exact ⟨right, trivial⟩
    | some shelf =>
      rw [step_consult c there]
      refine ⟨right.withInner fun s n after => .inl (steady.looking shelf there symbol m.inner s n after), ?_⟩
      dsimp only
      split
      · -- a name that is taken from the shelf is not asked for, so the shelf has to be right about it
        next name found => exact right.shelf symbol name (steady.found shelf there symbol m.inner name found)
      · trivial
  | ask =>
    rw [step_ask]
    refine ⟨right.withInner fun s n after => .inl (steady.asking symbol m.inner s n after), ?_⟩
    dsimp only
    split
    · next failed =>
      intro fine
      rw [fine] at failed
      cases failed
    · next fine => exact steady.answers symbol m.inner (by simpa using fine)
  | remember name fresh =>
    rw [step_remember]
    refine ⟨right.remember carried, ?_⟩
    cases fresh with
    | true => exact carried
    | false => exact fun _ => carried
  | shelve name =>
    cases there : c.shelf with
    | none =>
      rw [step_shelve_bare c there]
      exact ⟨right, fun _ => carried⟩
    | some shelf =>
      rw [step_shelve c there]
      refine ⟨right.withInner fun s n after => ?_, fun _ => carried⟩
      rcases steady.saving shelf there symbol name m.inner s n after with before | ⟨rfl, rfl⟩
      · exact .inl before
      · exact .inr carried
  | finished reply =>
    rw [step_finished]
    exact ⟨right, carried⟩

theorem happen_right (steady : c.Steady kept answer) (right : t.Right kept answer) {e : CallEvent σ}
    (harmless : e.Harmless kept) : (c.happen t e).Right kept answer := by
  cases e with
  | start symbol =>
    refine ⟨right.memory, fun call listed => ?_⟩
    rcases List.mem_append.mp listed with before | new
    · exact right.calls call before
    · rw [List.mem_singleton.mp new]
      trivial
  | advance position =>
    cases there : t.calls[position]? with
    | none => rwa [happen_idle there]
    | some call =>
      obtain ⟨symbol, phase⟩ := call
      obtain ⟨memory, carried⟩ := step_right steady right.memory (right.calls _ (List.mem_of_getElem? there))
      rw [happen_advance there]
      refine ⟨memory, fun call listed => ?_⟩
      rcases List.mem_or_eq_of_mem_set listed with before | rfl
      · exact right.calls call before
      · exact carried
  | outside change =>
    exact ⟨right.memory.withInner fun s n after => .inl (harmless t.memory.inner s n after), right.calls⟩

theorem play_right (steady : c.Steady kept answer) {events : List (CallEvent σ)} (harmless : ∀ e ∈ events, e.Harmless kept)
    (right : t.Right kept answer) : (c.play t events).Right kept answer := by
  induction events generalizing t with
  | nil => exact right
  | cons e events ih =>
    exact ih (fun x listed => harmless x (.tail _ listed)) (happen_right steady right (harmless e (.head _)))

end CachedBridge

/-! ### What becomes of one call -/

namespace CachedBridge

theorem happen_call {position : Nat} (there : t.calls[position]? = some (symbol, phase)) (e : CallEvent σ) :
    (c.happen t e).calls[position]? = some (symbol, phase) ∨
      (c.happen t e).calls[position]? = some (symbol, ((c.step symbol phase).run t.memory).1) := by
  have inside : position < t.calls.length := (List.getElem?_eq_some_iff.mp there).1
  cases e with
  | start other => exact .inl (by simp only [happen, List.getElem?_append_left inside, there])
  | advance other =>
    by_cases own : other = position
    · subst own
      rw [happen_advance there]
      exact .inr (List.getElem?_set_self inside)
    · refine .inl ?_
      cases elsewhere : t.calls[other]? with
      | none => rwa [happen_idle elsewhere]
      | some call => rwa [happen_advance elsewhere, List.getElem?_set_ne own]
  | outside change => exact .inl there

theorem play_finished {position : Nat} {reply : Reply} (events : List (CallEvent σ))
    (there : t.calls[position]? = some (symbol, .finished reply)) :
    (c.play t events).calls[position]? = some (symbol, .finished reply) := by
  induction events generalizing t with
  | nil => exact there
  | cons e events ih => exact ih ((happen_call there e).elim id id)

theorem step_names : m.names <:+ ((c.step symbol phase).run m).2.names := by
  cases phase with
  | peek => exact List.suffix_rfl
  | consult =>
    cases there : c.shelf with
    | none => simp [step_consult_bare c there]
    | some shelf => simp [step_consult c there]
  | ask => simp [step_ask]
  | remember name fresh => exact List.suffix_cons _ _
  | shelve name =>
    cases there : c.shelf with
    | none => simp [step_shelve_bare c there]
    | some shelf => simp [step_shelve c there]
  | finished reply => exact List.suffix_rfl

theorem happen_names (e : CallEvent σ) : t.memory.names <:+ (c.happen t e).memory.names := by
  cases e with
  | start symbol => exact List.suffix_rfl
  | advance position =>
    cases there : t.calls[position]? with
    | none => simp [happen_idle there]
    | some call => rw [happen_advance there]; exact step_names
  | outside change => exact List.suffix_rfl

theorem play_names (events : List (CallEvent σ)) : t.memory.names <:+ (c.play t events).memory.names := by
  induction events generalizing t with
  | nil => exact List.suffix_rfl
  | cons e events ih => exact (happen_names e).trans ih

theorem step_recalls (right : m.Right kept answer) (remembered : ∃ name, (symbol, name) ∈ m.names)
    (recalls : phase.Recalls answer symbol) : ((c.step symbol phase).run m).1.Recalls answer symbol := by
  rcases recalls with rfl | rfl
  · obtain ⟨name, listed⟩ := remembered
    have known : (m.name? symbol).isSome = true := Memory.name?_isSome.mpr ⟨(symbol, name), listed, rfl⟩
    obtain ⟨found, hit⟩ := Option.isSome_iff_exists.mp known
    have named : found = answer symbol := right.names _ (Memory.name?_eq_some hit)
    rw [step_peek, hit, named]
    exact .inr rfl
  · exact .inr rfl

theorem play_recalls (steady : c.Steady kept answer) {events : List (CallEvent σ)} (harmless : ∀ e ∈ events, e.Harmless kept)
    (right : t.Right kept answer) (remembered : ∃ name, (symbol, name) ∈ t.memory.names) {position : Nat}
    (there : t.calls[position]? = some (symbol, phase)) (recalls : phase.Recalls answer symbol) :
    ∃ later, (c.play t events).calls[position]? = some (symbol, later) ∧ later.Recalls answer symbol := by
  induction events generalizing t phase with
  | nil => exact ⟨phase, there, recalls⟩
  | cons e events ih =>
    have right' := happen_right steady right (harmless e (.head _))
    have remembered' : ∃ name, (symbol, name) ∈ (c.happen t e).memory.names :=
      remembered.imp fun name listed => (happen_names e).subset listed
    have harmless' : ∀ x ∈ events, x.Harmless kept := fun x listed => harmless x (.tail _ listed)
    rcases happen_call (c := c) there e with still | stepped
    · exact ih harmless' right' remembered' still recalls
    · exact ih harmless' right' remembered' stepped (step_recalls right.memory remembered recalls)

/-- In every order of the steps of any number of calls: a call that succeeds answers the right name; memory and shelf hold
right names only; a bridge that fails ends its call, and nothing but the bridge itself did anything; and once a call has
remembered a name, a call for that symbol that begins later looks into the memory and nowhere else. -/
theorem interleaved_calls_agree (steady : c.Steady kept answer) {inner : σ}
    (shelved : ∀ symbol name, kept inner symbol name → name = answer symbol) {events : List (CallEvent σ)}
    (harmless : ∀ e ∈ events, e.Harmless kept) (played : c.play ⟨⟨[], inner⟩, []⟩ events = t) :
    (∀ symbol reply, (symbol, .finished reply) ∈ t.calls → reply.fault = none → reply.name = answer symbol) ∧
    t.memory.Right kept answer ∧
    (∀ position symbol, t.calls[position]? = some (symbol, .ask) →
      ((c.next symbol).run t.memory.inner).1.fault.isSome →
        (c.happen t (.advance position)).memory = ⟨t.memory.names, ((c.next symbol).run t.memory.inner).2⟩ ∧
        ∀ later, (c.play t (.advance position :: later)).calls[position]? =
          some (symbol, .finished ((c.next symbol).run t.memory.inner).1)) ∧
    ∀ position symbol name fresh, t.calls[position]? = some (symbol, .remember name fresh) →
      ∀ before after, (∀ e ∈ before, e.Harmless kept) → (∀ e ∈ after, e.Harmless kept) →
        let u := c.play t (.advance position :: before)
        ∃ phase, (c.play u (.start symbol :: after)).calls[u.calls.length]? = some (symbol, phase) ∧
          phase.Recalls answer symbol := by
  have right : t.Right kept answer := by
    rw [← played]
    exact play_right steady harmless ⟨⟨List.forall_mem_nil _, shelved⟩, List.forall_mem_nil _⟩
  refine ⟨fun symbol reply listed => right.calls _ listed, right.memory, ?_, ?_⟩
  · intro position symbol there failed
    have inside : position < t.calls.length := (List.getElem?_eq_some_iff.mp there).1
    have stepped : (c.step symbol .ask).run t.memory = (.finished ((c.next symbol).run t.memory.inner).1,
        ⟨t.memory.names, ((c.next symbol).run t.memory.inner).2⟩) := by
      rw [step_ask, if_pos failed]
    have ended := happen_advance (c := c) there
    rw [stepped] at ended
    refine ⟨by rw [ended], fun later => play_finished later ?_⟩
    rw [ended]
    exact List.getElem?_set_self inside
  · intro position symbol name fresh there before after harmless' harmless'' u
    have stepped : (c.happen t (.advance position)).memory = t.memory.remember symbol name := by
      rw [happen_advance there, step_remember]
    have remembered : (symbol, name) ∈ (c.happen t (.advance position)).memory.names := by
      rw [stepped]
      exact .head _
    have right' : u.Right kept answer :=
      play_right (t := c.happen t (.advance position)) steady harmless' (happen_right steady right trivial)
    have known : (symbol, name) ∈ u.memory.names := (play_names before).subset remembered
    have begun : (c.happen u (.start symbol)).calls[u.calls.length]? = some (symbol, .peek) := List.getElem?_concat_length
    have right'' : (c.happen u (.start symbol)).Right kept answer := happen_right steady right' trivial
    exact play_recalls steady harmless'' right'' ⟨name, known⟩ begun (.inl rfl)

end CachedBridge

end

/-! A bridge and a shelf that are down at times. -/

namespace FlakyService

abbrev World := Bool × List (String × String)

def held (w : World) (symbol name : String) : Prop := (symbol, name) ∈ w.2

def full (symbol : String) : String := symbol ++ "!"

def demangler : Bridge World := fun symbol w => (if w.1 then ⟨full symbol, none⟩ else ⟨symbol, some (.plain "down")⟩, w)

def shelf : Shelf World where
  lookup symbol := fun w => (if w.1 then .ok (w.2.lookup symbol) else .error (.plain "down"), w)
  save symbol name := fun w => if w.1 then (none, w.1, (symbol, name) :: w.2) else (some (.plain "down"), w)

def cached : CachedBridge World := ⟨demangler, some shelf⟩

def stocked : World := (true, [("g", "g!")])

def goDown : CallEvent World := .outside fun w => (false, w.2)
def comeUp : CallEvent World := .outside fun w => (true, w.2)

theorem cached_steady : cached.Steady held full := by
  constructor
  · intro symbol w fine
    cases up : w.1 with
    | true => simp [cached, demangler, StateT.run, up]
    | false => simp [cached, demangler, StateT.run, up] at fine
  · exact fun symbol w s n there => there
  · intro kept there symbol w name found
    cases there
    cases up : w.1 with
    | true =>
      have hit : w.2.lookup symbol = some name := by simpa [shelf, StateT.run, up] using found
      obtain ⟨newer, older, parts, _⟩ := List.lookup_eq_some_iff.mp hit
      rw [held, parts]
      exact List.mem_append_right _ (.head _)
    | false => simp [shelf, StateT.run, up] at found
  · intro kept there symbol w s n after
    cases there
    exact after
  · intro kept there symbol name w s n after
    cases there
    cases up : w.1 with
    | true =>
      have after : (s, n) ∈ (symbol, name) :: w.2 := by simpa [shelf, held, StateT.run, up] using after
      rcases List.mem_cons.mp after with new | before
      · cases new
        exact .inr ⟨rfl, rfl⟩
      · exact .inl before
    | false => exact .inl (by simpa [shelf, held, StateT.run, up] using after)

/-- Two calls for one symbol miss it together. The first is refused while the service is down, the second is served when
it is up again and has yet to write. -/
def together : List (CallEvent World) :=
  [.start "f", .start "f", .advance 0, .advance 1, .advance 0, .advance 1, goDown, .advance 0, comeUp, .advance 1, goDown]

theorem together_harmless : ∀ e ∈ together, e.Harmless held := by
  simp [together, goDown, comeUp, CallEvent.Harmless, held]

end FlakyService

open FlakyService in
/-- Even with the service down, a third call is served from the memory once the second has written. -/
theorem flaky_calls_agree :
    cached.Steady held full ∧ (∀ symbol name, held stocked symbol name → name = full symbol) ∧
    (∀ e ∈ together, e.Harmless held) ∧
    (cached.play ⟨⟨[], stocked⟩, []⟩ together).calls =
      [("f", .finished ⟨"f", some (.plain "down")⟩), ("f", .remember "f!" true)] ∧
    ∃ phase, (cached.play (cached.play ⟨⟨[], stocked⟩, []⟩ together)
        (.advance 1 :: .start "f" :: [.advance 2])).calls[2]? = some ("f", phase) ∧ phase.Recalls full "f" := by
  have shelved : ∀ symbol name, held stocked symbol name → name = full symbol := by
    simp [held, stocked, full]
  obtain ⟨_, _, _, agree⟩ := CachedBridge.interleaved_calls_agree cached_steady shelved together_harmless rfl
  have later : ∀ e ∈ [CallEvent.advance 2], e.Harmless held := by
    simp [CallEvent.Harmless]
  exact ⟨cached_steady, shelved, together_harmless, by rfl,
    agree 1 "f" "f!" true (by rfl) [] [.advance 2] (List.forall_mem_nil _) later⟩

end CallFusion
