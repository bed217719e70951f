import CallFusion.Proofs.Shutdown.Traffic

/-!
Where calls to a coordinator can be before the first run has the lock, while it has it, and afterwards, and that no step
leads anywhere else.
-/

namespace CallFusion.Shutdown

variable {σ : Type}

/-! ### Stages -/

/-- Before: runs wait, and no hook is under way. -/
def Early : Request σ × Phase σ → Prop
  | (.run, phase) => phase = .waiting
  | (_, .between ..) | (_, .within ..) => False
  | _ => True

/-- Afterwards: another run has nothing to do and nothing to tell. -/
def Late : Request σ × Phase σ → Prop
  | (.run, .between hooks faults) => hooks = [] ∧ faults = []
  | (.run, .returned answer) => answer = .outcome none
  | (_, .between ..) | (_, .within ..) => False
  | _ => True

/-- What holds of every call but the runner. -/
def Apart (P : Request σ × Phase σ → Prop) (runner : Option Nat) (calls : List (Request σ × Phase σ)) : Prop :=
  ∀ j call, calls[j]? = some call → runner ≠ some j → P call

/-- How far the runner is with its hooks. -/
def Serves (hooks : List (Hook σ)) (h : List (Happening σ)) : Phase σ → Prop
  | .between rest faults => executed h ++ rest = hooks ∧ (outcomes h).map (·.1) = executed h ∧ faults = failures (outcomes h)
  | .within hook rest faults =>
    executed h ++ rest = hooks ∧ (outcomes h).map (·.1) ++ [hook] = executed h ∧ faults = failures (outcomes h)
  | .returned answer =>
    executed h = hooks ∧ (outcomes h).map (·.1) = hooks ∧ answer = .outcome (Coordinator.joined (failures (outcomes h)))
  | _ => False

/-- A call for the number of hooks that is told of none. -/
def Counted (calls : List (Request σ × Phase σ)) (j : Nat) : Prop :=
  calls[j]? = some (.size, .inside) ∨ calls[j]? = some (.size, .returned (.size 0))

/-- No run has had the lock yet. -/
structure Traffic.Open (t : Traffic σ) : Prop where
  calls : Apart Early none t.calls
  quiet : ∀ x ∈ t.history, x.Quiet
  done : t.coordinator.done = false
  free : t.holder = none → t.coordinator.hooks = offered t.history
  busy : ∀ (i : Nat) (request : Request σ), t.calls[i]? = some (request, .inside) →
    t.coordinator.hooks ++ request.hooks = offered t.history

/-- The first run has the lock. -/
structure Traffic.Taking (before : List (Happening σ)) (i : Nat) (t : Traffic σ) : Prop where
  calls : Apart Early (some i) t.calls
  runner : t.calls[i]? = some (.run, .inside)
  history : t.history = before ++ [.locked i .run]
  quiet : ∀ x ∈ before, x.Quiet
  done : t.coordinator.done = false
  hooks : t.coordinator.hooks = offered before

/-- The first run has its hooks. -/
structure Traffic.Taken (before : List (Happening σ)) (i : Nat) (after : List (Happening σ)) (t : Traffic σ) : Prop where
  calls : Apart Late (some i) t.calls
  runner : ∃ phase, t.calls[i]? = some (.run, phase) ∧ Serves (offered before).reverse after phase
  history : t.history = before ++ .locked i .run :: after
  quiet : ∀ x ∈ before, x.Quiet
  done : t.coordinator.done = true
  owner : ∀ j hook, .began j hook ∈ after → j = i
  sizes : ∀ j, .locked j .size ∈ after → Counted t.calls j

section

variable {P : Request σ × Phase σ → Prop} {runner : Option Nat} {calls : List (Request σ × Phase σ)} {i : Nat}
  {request : Request σ} {phase : Phase σ} {t t' : Traffic σ} {before after : List (Happening σ)}

@[simp] theorem not_early_between (request : Request σ) (hooks : List (Hook σ)) (faults : List Fault) :
    ¬ Early (request, .between hooks faults) := by
  cases request <;> simp [Early]

@[simp] theorem not_early_within (request : Request σ) (hook : Hook σ) (hooks : List (Hook σ)) (faults : List Fault) :
    ¬ Early (request, .within hook hooks faults) := by
  cases request <;> simp [Early]

@[simp] theorem early_waiting (request : Request σ) : Early (request, .waiting) := by
  cases request <;> simp [Early]

theorem Apart.set (apart : Apart P runner calls) (new : runner ≠ some i → P (request, phase)) :
    Apart P runner (calls.set i (request, phase)) := by
  intro j call there other
  by_cases same : i = j
  · subst same
    obtain ⟨_, rfl⟩ : _ ∧ (request, phase) = call := by simpa [List.getElem?_set] using there
    exact new other
  · rw [set_other same] at there
    exact apart j call there other

theorem Apart.made (apart : Apart P runner calls) (new : P (request, phase)) : Apart P runner (calls ++ [(request, phase)]) := by
  rintro j ⟨request', phase'⟩ there other
  rcases made_eq_some_iff.mp there with old | ⟨_, same⟩
  · exact apart j _ old other
  · rwa [← same]

theorem inside_of_set {j : Nat} {request' : Request σ} (out : phase ≠ .inside)
    (inside : (calls.set i (request, phase))[j]? = some (request', .inside)) : calls[j]? = some (request', .inside) := by
  by_cases same : i = j
  · subst same
    simp [List.getElem?_set, out] at inside
  · rwa [set_other same] at inside

theorem Traffic.Open.locked (opened : t.Open) (held' : Held (some i) (t.calls.set i (request, .inside)))
    (free : t.holder = none) (there : t.calls[i]? = some (request, .waiting)) (quiet : (Happening.locked i request).Quiet)
    (allowed : Early (request, .inside)) :
    Traffic.Open ({ t with holder := some i, history := t.history ++ [Happening.locked i request] }.put i request .inside) := by
  constructor
  case calls => exact opened.calls.set fun _ => allowed
  case quiet =>
    intro x listed
    rcases List.mem_append.mp listed with old | new
    · exact opened.quiet x old
    · rwa [List.mem_singleton.mp new]
  case done => exact opened.done
  case free => exact nofun
  case busy =>
    intro j request' inside
    obtain rfl := Option.some.inj ((held' j).mpr ⟨request', inside⟩)
    cases (set_self there).symm.trans inside
    rw [put_coordinator, put_history, offered_append, opened.free free]
    simp [offered]

theorem serve_early {c : Coordinator σ} (fresh : c.done = false) (allowed : Early (request, .inside)) :
    (request.serve c).1 = { c with hooks := c.hooks ++ request.hooks } ∧ Early (request, (request.serve c).2) := by
  cases request with
  | register hook =>
    cases hook with
    | none => simp [Request.serve, Coordinator.offer, Request.hooks, Early]
    | some hook => simp [Request.serve, Coordinator.offer, Coordinator.register, fresh, Request.hooks, Early]
  | size => simp [Request.serve, Request.hooks, Early]
  | run => cases allowed

theorem Traffic.Open.served (opened : t.Open) (held' : Held none (t.calls.set i (request, (request.serve t.coordinator).2)))
    (there : t.calls[i]? = some (request, .inside)) :
    Traffic.Open ({ t with coordinator := (request.serve t.coordinator).1, holder := none }.put i request
      (request.serve t.coordinator).2) := by
  have busy := opened.busy i request there
  obtain ⟨same, early⟩ := serve_early opened.done (opened.calls i _ there nofun)
  constructor
  case calls => exact opened.calls.set fun _ => early
  case quiet => exact opened.quiet
  case done => simpa [same] using opened.done
  case free => simpa [same] using busy
  case busy =>
    intro j request' inside
    cases (held' j).mpr ⟨request', inside⟩

theorem Traffic.Open.move (opened : t.Open) (held : Held t.holder t.calls) (move : t.Move t') :
    t'.Open ∨ ∃ i, t'.Taking t.history i := by
  have held' := move.held held
  cases move with
  | idle => exact .inl opened
  | changed world => exact .inl ⟨opened.calls, opened.quiet, opened.done, opened.free, opened.busy⟩
  | made request =>
    refine .inl ⟨opened.calls.made (early_waiting request), opened.quiet, opened.done, opened.free, ?_⟩
    intro i request inside
    rcases made_eq_some_iff.mp inside with old | ⟨_, new⟩
    · exact opened.busy i request old
    · cases new
  | bare i there =>
    refine .inl ⟨opened.calls.set fun _ => trivial, opened.quiet, opened.done, opened.free, ?_⟩
    intro j request inside
    exact opened.busy j request (inside_of_set (by simp) inside)
  | locked i request there free =>
    cases request with
    | register hook => exact .inl (opened.locked held' free there trivial trivial)
    | size => exact .inl (opened.locked held' free there trivial trivial)
    | run =>
      refine .inr ⟨i, ?_, set_self there, rfl, opened.quiet, opened.done, opened.free free⟩
      intro j call there' other
      have apart : i ≠ j := fun same => other (congrArg some same)
      rw [put_calls, set_other apart] at there'
      exact opened.calls j call there' nofun
  | served i request there => exact .inl (opened.served held' there)
  | began i request hook hooks faults there => exact absurd (opened.calls i _ there nofun) (not_early_between _ _ _)
  | ended i request hook hooks faults fault world there => exact absurd (opened.calls i _ there nofun) (not_early_within _ _ _ _)
  | finished i request faults there => exact absurd (opened.calls i _ there nofun) (not_early_between _ _ _)

theorem Early.late {call : Request σ × Phase σ} (early : Early call) : Late call := by
  obtain ⟨request, phase⟩ := call
  cases request with
  | run =>
    cases early
    trivial
  | _ =>
    cases phase with
    | between => cases early
    | within => cases early
    | _ => trivial

theorem Apart.mono {Q : Request σ × Phase σ → Prop} (apart : Apart P runner calls) (weaker : ∀ call, P call → Q call) :
    Apart Q runner calls :=
  fun j call there other => weaker call (apart j call there other)

theorem Traffic.Taking.move (taking : t.Taking before i) (held : Held t.holder t.calls) (move : t.Move t') :
    t'.Taking before i ∨ t'.Taken before i [] := by
  have holds := (held i).mpr ⟨.run, taking.runner⟩
  cases move with
  | idle => exact .inl taking
  | changed world => exact .inl ⟨taking.calls, taking.runner, taking.history, taking.quiet, taking.done, taking.hooks⟩
  | made request =>
    exact .inl ⟨taking.calls.made (early_waiting request), made_eq_some_iff.mpr (.inl taking.runner), taking.history,
      taking.quiet, taking.done, taking.hooks⟩
  | bare j there =>
    have other := position_ne there taking.runner (by simp)
    exact .inl ⟨taking.calls.set fun _ => trivial, (set_other other).trans taking.runner, taking.history,
      taking.quiet, taking.done, taking.hooks⟩
  | locked j request there free => cases holds.symm.trans free
  | served j request there =>
    obtain rfl : i = j := Option.some.inj (holds.symm.trans ((held j).mpr ⟨request, there⟩))
    cases there.symm.trans taking.runner
    have taken : t.coordinator.take = ((offered before).reverse, { hooks := [], done := true }) := by
      simp [Coordinator.take, taking.done, taking.hooks]
    refine .inr ⟨(taking.calls.mono fun _ => Early.late).set fun other => absurd rfl other, ?_, taking.history, taking.quiet,
      ?_, nofun, nofun⟩
    · refine ⟨_, set_self there, ?_⟩
      simp [Request.serve, taken, Serves, executed, outcomes, failures]
    · simp [Request.serve, taken]
  | began j request hook hooks faults there =>
    have other := position_ne taking.runner there (by simp)
    exact absurd (taking.calls j _ there (by simpa using other)) (not_early_between _ _ _)
  | ended j request hook hooks faults fault world there =>
    have other := position_ne taking.runner there (by simp)
    exact absurd (taking.calls j _ there (by simpa using other)) (not_early_within _ _ _ _)
  | finished j request faults there =>
    have other := position_ne taking.runner there (by simp)
    exact absurd (taking.calls j _ there (by simpa using other)) (not_early_between _ _ _)

theorem serve_late {c : Coordinator σ} (done : c.done = true) :
    (request.serve c).1 = c ∧ Late (request, (request.serve c).2) := by
  cases request with
  | register hook =>
    cases hook with
    | none => simp [Request.serve, Coordinator.offer, Late]
    | some hook => simp [Request.serve, Coordinator.offer, Coordinator.register, done, Late]
  | size => simp [Request.serve, Late]
  | run => simp [Request.serve, Coordinator.take, done, Late]

theorem Serves.ne_waiting {hooks : List (Hook σ)} (serves : Serves hooks after phase) : phase ≠ .waiting := by
  rintro rfl
  exact serves

theorem Serves.ne_inside {hooks : List (Hook σ)} (serves : Serves hooks after phase) : phase ≠ .inside := by
  rintro rfl
  exact serves

theorem serves_locked {hooks : List (Hook σ)} {j : Nat} :
    Serves hooks (after ++ [.locked j request]) phase ↔ Serves hooks after phase := by
  cases phase <;> simp [Serves]

theorem Serves.began {hooks rest : List (Hook σ)} {hook : Hook σ} {faults : List Fault}
    (serves : Serves hooks after (.between (hook :: rest) faults)) :
    Serves hooks (after ++ [.began i hook]) (.within hook rest faults) := by
  obtain ⟨parts, ends, gathered⟩ := serves
  simp [Serves, ends, gathered, parts]

theorem Serves.ended {hooks rest : List (Hook σ)} {hook : Hook σ} {faults : List Fault} (fault : Option Fault)
    (serves : Serves hooks after (.within hook rest faults)) :
    Serves hooks (after ++ [.ended i hook fault]) (.between rest (faults ++ (fault.map (Fault.during hook.name)).toList)) := by
  obtain ⟨parts, ends, gathered⟩ := serves
  simp [Serves, parts, ends, gathered, failures_concat]

theorem Serves.finished {hooks : List (Hook σ)} {faults : List Fault} (serves : Serves hooks after (.between [] faults)) :
    Serves hooks after (.returned (.outcome (Coordinator.joined faults))) := by
  obtain ⟨parts, ends, gathered⟩ := serves
  rw [List.append_nil] at parts
  exact ⟨parts, ends.trans parts, by rw [gathered]⟩

@[simp] theorem late_waiting (request : Request σ) : Late (request, .waiting) := (early_waiting request).late

@[simp] theorem late_inside (request : Request σ) : Late (request, .inside) := by
  cases request <;> trivial

theorem not_late_between (request : Request σ) (hook : Hook σ) (hooks : List (Hook σ)) (faults : List Fault) :
    ¬ Late (request, .between (hook :: hooks) faults) := by
  cases request <;> simp [Late]

theorem not_late_within (request : Request σ) (hook : Hook σ) (hooks : List (Hook σ)) (faults : List Fault) :
    ¬ Late (request, .within hook hooks faults) := by
  cases request <;> simp [Late]

theorem late_finished {faults : List Fault} (late : Late (request, .between [] faults)) :
    Late (request, .returned (.outcome (Coordinator.joined faults))) := by
  cases request with
  | run =>
    obtain ⟨_, rfl⟩ := late
    rfl
  | _ => trivial

theorem Counted.set {j k : Nat} {call : Request σ × Phase σ} (counted : Counted calls j)
    (there : calls[k]? = some (request, phase)) (outside : phase ≠ .inside) (underway : ∀ answer, phase ≠ .returned answer) :
    Counted (calls.set k call) j := by
  have other : k ≠ j := by
    rintro rfl
    rcases counted with inside | returned
    · cases there.symm.trans inside
      exact outside rfl
    · cases there.symm.trans returned
      exact underway _ rfl
  rwa [Counted, set_other other]

theorem Counted.made {j : Nat} {call : Request σ × Phase σ} (counted : Counted calls j) : Counted (calls ++ [call]) j :=
  counted.imp (fun inside => made_eq_some_iff.mpr (.inl inside)) fun returned => made_eq_some_iff.mpr (.inl returned)

theorem Traffic.Taken.locked (taken : t.Taken before i after) {j : Nat} (there : t.calls[j]? = some (request, .waiting)) :
    Traffic.Taken before i (after ++ [.locked j request])
      ({ t with holder := some j, history := t.history ++ [Happening.locked j request] }.put j request .inside) := by
  obtain ⟨phase, runner, serves⟩ := taken.runner
  have other := position_ne there runner fun same => serves.ne_waiting (Prod.mk.inj same).2.symm
  constructor
  case calls => exact taken.calls.set fun _ => late_inside request
  case runner => exact ⟨phase, (set_other other).trans runner, serves_locked.mpr serves⟩
  case history => simp [taken.history]
  case quiet => exact taken.quiet
  case done => exact taken.done
  case owner =>
    intro k hook listed
    exact taken.owner k hook (by simpa using listed)
  case sizes =>
    intro k listed
    rcases List.mem_append.mp listed with old | new
    · exact (taken.sizes k old).set there nofun nofun
    · cases List.mem_singleton.mp new
      exact .inl (set_self there)

theorem Traffic.Taken.served (taken : t.Taken before i after) {j : Nat} (there : t.calls[j]? = some (request, .inside)) :
    Traffic.Taken before i after ({ t with coordinator := (request.serve t.coordinator).1, holder := none }.put j request
      (request.serve t.coordinator).2) := by
  obtain ⟨phase, runner, serves⟩ := taken.runner
  obtain ⟨same, late⟩ : (request.serve t.coordinator).1 = t.coordinator ∧ Late (request, (request.serve t.coordinator).2) :=
    serve_late taken.done
  have other := position_ne there runner fun same => serves.ne_inside (Prod.mk.inj same).2.symm
  constructor
  case calls => exact taken.calls.set fun _ => late
  case runner => exact ⟨phase, (set_other other).trans runner, serves⟩
  case history => exact taken.history
  case quiet => exact taken.quiet
  case done => exact (congrArg Coordinator.done same).trans taken.done
  case owner => exact taken.owner
  case sizes =>
    intro k listed
    by_cases here : j = k
    · subst here
      rcases taken.sizes j listed with inside | returned
      · cases there.symm.trans inside
        refine .inr ((set_self there).trans ?_)
        simp [Request.serve, Coordinator.size, taken.done]
      · cases there.symm.trans returned
    · rw [Counted, put_calls, set_other here]
      exact taken.sizes k listed

/-- A step of the runner. -/
theorem Traffic.Taken.step (taken : t.Taken before i after) {new : List (Happening σ)} {world : σ} {phase' : Phase σ}
    (there : t.calls[i]? = some (.run, phase)) (outside : phase ≠ .inside) (underway : ∀ answer, phase ≠ .returned answer)
    (serves : Serves (offered before).reverse (after ++ new) phase') (own : ∀ j hook, .began j hook ∈ new → j = i)
    (quiet : ∀ j request, .locked j request ∉ new) :
    Traffic.Taken before i (after ++ new) ({ t with world := world, history := t.history ++ new }.put i .run phase') := by
  constructor
  case calls => exact taken.calls.set fun other => absurd rfl other
  case runner => exact ⟨phase', set_self there, serves⟩
  case history => simp [taken.history]
  case quiet => exact taken.quiet
  case done => exact taken.done
  case owner =>
    intro j hook listed
    rcases List.mem_append.mp listed with old | fresh
    · exact taken.owner j hook old
    · exact own j hook fresh
  case sizes =>
    intro j listed
    rcases List.mem_append.mp listed with old | fresh
    · exact (taken.sizes j old).set there outside underway
    · exact absurd fresh (quiet j .size)

theorem Traffic.Taken.move (taken : t.Taken before i after) (move : t.Move t') : ∃ after', t'.Taken before i after' := by
  obtain ⟨phase, runner, serves⟩ := taken.runner
  cases move with
  | idle => exact ⟨after, taken⟩
  | changed world =>
    exact ⟨after, taken.calls, taken.runner, taken.history, taken.quiet, taken.done, taken.owner, taken.sizes⟩
  | made request =>
    exact ⟨after, taken.calls.made (late_waiting request), ⟨phase, made_eq_some_iff.mpr (.inl runner), serves⟩, taken.history,
      taken.quiet, taken.done, taken.owner, fun j listed => (taken.sizes j listed).made⟩
  | bare j there =>
    have other := position_ne there runner (by simp)
    exact ⟨after, taken.calls.set fun _ => trivial, ⟨phase, (set_other other).trans runner, serves⟩, taken.history,
      taken.quiet, taken.done, taken.owner, fun k listed => (taken.sizes k listed).set there nofun nofun⟩
  | locked j request there free => exact ⟨_, taken.locked there⟩
  | served j request there => exact ⟨_, taken.served there⟩
  | began j request hook hooks faults there =>
    by_cases same : i = j
    · subst same
      cases there.symm.trans runner
      exact ⟨_, taken.step runner nofun nofun serves.began (by simp) (by simp)⟩
    · exact absurd (taken.calls j _ there (by simpa using same)) (not_late_between _ _ _ _)
  | ended j request hook hooks faults fault world there =>
    by_cases same : i = j
    · subst same
      cases there.symm.trans runner
      exact ⟨_, taken.step runner nofun nofun (serves.ended fault) (by simp) (by simp)⟩
    · exact absurd (taken.calls j _ there (by simpa using same)) (not_late_within _ _ _ _)
  | finished j request faults there =>
    by_cases same : i = j
    · subst same
      cases there.symm.trans runner
      exact ⟨after, taken.calls.set fun other => absurd rfl other, ⟨_, set_self there, serves.finished⟩, taken.history,
        taken.quiet, taken.done, taken.owner, fun k listed => (taken.sizes k listed).set there nofun nofun⟩
    · have late := late_finished (taken.calls j _ there (by simpa using same))
      exact ⟨after, taken.calls.set fun _ => late, ⟨phase, (set_other (Ne.symm same)).trans runner, serves⟩, taken.history,
        taken.quiet, taken.done, taken.owner, fun k listed => (taken.sizes k listed).set there nofun nofun⟩

end

end CallFusion.Shutdown
