import CallFusion.Shutdown

/-!
Calls to one coordinator, in any order of their steps. A hook under way may call the coordinator as well: what it calls is
one of the calls, and while hooks run the lock is free. The first run that gets the lock has the hooks that were registered
before; no other run has any.
-/

namespace CallFusion.Shutdown

variable {σ : Type}

/-- What a coordinator is called for. A registration may come without a hook. -/
inductive Request (σ : Type) where
  | register (hook : Option (Hook σ))
  | size
  | run

inductive Answer where
  | registered
  | size (n : Nat)
  | outcome (fault : Option Fault)

/-- How far a call is. -/
inductive Phase (σ : Type) where
  | waiting
  | inside
  /-- It gave the lock back; these hooks are left to run, and those before them failed so. -/
  | between (hooks : List (Hook σ)) (faults : List Fault)
  | within (hook : Hook σ) (hooks : List (Hook σ)) (faults : List Fault)
  | returned (answer : Answer)

inductive Happening (σ : Type) where
  | locked (call : Nat) (request : Request σ)
  | began (call : Nat) (hook : Hook σ)
  | ended (call : Nat) (hook : Hook σ) (fault : Option Fault)

/-- A coordinator, its lock, and the calls in the order in which they were made. -/
structure Traffic (σ : Type) where
  coordinator : Coordinator σ := {}
  holder : Option Nat := none
  world : σ
  calls : List (Request σ × Phase σ) := []
  history : List (Happening σ) := []

/-- A call is made, the call at a position takes its next step, or the world changes. -/
inductive Event (σ : Type) where
  | start (request : Request σ)
  | advance (call : Nat)
  | outside (change : σ → σ)

def Request.serve (c : Coordinator σ) : Request σ → Coordinator σ × Phase σ
  | register hook => (c.offer hook, .returned .registered)
  | size => (c, .returned (.size c.size))
  | run => (c.take.2, .between c.take.1 [])

namespace Traffic

def put (t : Traffic σ) (i : Nat) (request : Request σ) (phase : Phase σ) : Traffic σ :=
  { t with calls := t.calls.set i (request, phase) }

/-- The next step of a call. A registration without a hook does not ask for the lock. -/
def advance (t : Traffic σ) (i : Nat) : Traffic σ :=
  match t.calls[i]? with
  | none => t
  | some (request, .waiting) =>
    match request with
    | .register none => t.put i request (.returned .registered)
    | _ =>
      if t.holder.isSome then t
      else { t with holder := some i, history := t.history ++ [Happening.locked i request] }.put i request .inside
  | some (request, .inside) =>
    { t with coordinator := (request.serve t.coordinator).1, holder := none }.put i request (request.serve t.coordinator).2
  | some (request, .between [] faults) => t.put i request (.returned (.outcome (Coordinator.joined faults)))
  | some (request, .between (hook :: hooks) faults) =>
    { t with history := t.history ++ [Happening.began i hook] }.put i request (.within hook hooks faults)
  | some (request, .within hook hooks faults) =>
    let (fault, world) := hook.run.run t.world
    { t with world := world, history := t.history ++ [Happening.ended i hook fault] }.put i request
      (.between hooks (faults ++ (fault.map (Fault.during hook.name)).toList))
  | some (_, .returned _) => t

section

variable {t : Traffic σ} {i : Nat} {request : Request σ} {hook : Hook σ} {hooks : List (Hook σ)} {faults : List Fault}

theorem advance_inside (there : t.calls[i]? = some (request, .inside)) :
    t.advance i = { t with coordinator := (request.serve t.coordinator).1, holder := none }.put i request
      (request.serve t.coordinator).2 := by
  simp only [advance, there]

theorem advance_last (there : t.calls[i]? = some (request, .between [] faults)) :
    t.advance i = t.put i request (.returned (.outcome (Coordinator.joined faults))) := by
  simp only [advance, there]

theorem advance_between (there : t.calls[i]? = some (request, .between (hook :: hooks) faults)) :
    t.advance i = { t with history := t.history ++ [Happening.began i hook] }.put i request (.within hook hooks faults) := by
  simp only [advance, there]

theorem advance_within (there : t.calls[i]? = some (request, .within hook hooks faults)) :
    t.advance i = { t with
      world := (hook.run.run t.world).2
      history := t.history ++ [Happening.ended i hook (hook.run.run t.world).1] }.put i request
        (.between hooks (faults ++ ((hook.run.run t.world).1.map (Fault.during hook.name)).toList)) := by
  simp only [advance, there]
  rfl

theorem advance_returned {answer : Answer} (there : t.calls[i]? = some (request, .returned answer)) : t.advance i = t := by
  simp only [advance, there]

end

def happen (t : Traffic σ) : Event σ → Traffic σ
  | .start request => { t with calls := t.calls ++ [(request, .waiting)] }
  | .advance i => t.advance i
  | .outside change => { t with world := change t.world }

def play (t : Traffic σ) (events : List (Event σ)) : Traffic σ := events.foldl happen t

/-- What one event can do. -/
inductive Move (t : Traffic σ) : Traffic σ → Prop
  | idle : Move t t
  | changed (world : σ) : Move t { t with world := world }
  | made (request : Request σ) : Move t { t with calls := t.calls ++ [(request, .waiting)] }
  | bare (i : Nat) (there : t.calls[i]? = some (.register none, .waiting)) :
      Move t (t.put i (.register none) (.returned .registered))
  | locked (i : Nat) (request : Request σ) (there : t.calls[i]? = some (request, .waiting)) (free : t.holder = none) :
      Move t ({ t with holder := some i, history := t.history ++ [Happening.locked i request] }.put i request .inside)
  | served (i : Nat) (request : Request σ) (there : t.calls[i]? = some (request, .inside)) :
      Move t ({ t with coordinator := (request.serve t.coordinator).1, holder := none }.put i request
        (request.serve t.coordinator).2)
  | began (i : Nat) (request : Request σ) (hook : Hook σ) (hooks : List (Hook σ)) (faults : List Fault)
      (there : t.calls[i]? = some (request, .between (hook :: hooks) faults)) :
      Move t ({ t with history := t.history ++ [Happening.began i hook] }.put i request (.within hook hooks faults))
  | ended (i : Nat) (request : Request σ) (hook : Hook σ) (hooks : List (Hook σ)) (faults : List Fault)
      (fault : Option Fault) (world : σ) (there : t.calls[i]? = some (request, .within hook hooks faults)) :
      Move t ({ t with world := world, history := t.history ++ [Happening.ended i hook fault] }.put i request
        (.between hooks (faults ++ (fault.map (Fault.during hook.name)).toList)))
  | finished (i : Nat) (request : Request σ) (faults : List Fault)
      (there : t.calls[i]? = some (request, .between [] faults)) :
      Move t (t.put i request (.returned (.outcome (Coordinator.joined faults))))

theorem happen_move (t : Traffic σ) (e : Event σ) : t.Move (t.happen e) := by
  cases e with
  | start request => exact .made request
  | outside change => exact .changed _
  | advance i =>
    rw [happen, advance]
    split
    · exact .idle
    · next request there =>
      split
      · exact .bare i there
      · split
        · exact .idle
        · next free => exact .locked i request there (by simpa using free)
    · next request there => exact .served i request there
    · next request faults there => exact .finished i request faults there
    · next request hook hooks faults there => exact .began i request hook hooks faults there
    · next request hook hooks faults there => exact .ended i request hook hooks faults _ _ there
    · exact .idle

@[simp] theorem put_calls (t : Traffic σ) (i : Nat) (request : Request σ) (phase : Phase σ) :
    (t.put i request phase).calls = t.calls.set i (request, phase) := rfl

@[simp] theorem put_coordinator (t : Traffic σ) (i : Nat) (request : Request σ) (phase : Phase σ) :
    (t.put i request phase).coordinator = t.coordinator := rfl

@[simp] theorem put_holder (t : Traffic σ) (i : Nat) (request : Request σ) (phase : Phase σ) :
    (t.put i request phase).holder = t.holder := rfl

@[simp] theorem put_history (t : Traffic σ) (i : Nat) (request : Request σ) (phase : Phase σ) :
    (t.put i request phase).history = t.history := rfl

end Traffic

/-! ### What happened -/

def Request.hooks : Request σ → List (Hook σ)
  | register hook => hook.toList
  | _ => []

/-- The hooks of the registrations that got the lock. -/
def offered (h : List (Happening σ)) : List (Hook σ) := h.flatMap fun
  | .locked _ request => request.hooks
  | _ => []

def executed (h : List (Happening σ)) : List (Hook σ) := h.filterMap fun
  | .began _ hook => some hook
  | _ => none

def outcomes (h : List (Happening σ)) : List (Hook σ × Option Fault) := h.filterMap fun
  | .ended _ hook fault => some (hook, fault)
  | _ => none

/-- The faults of hooks under the names of the hooks. -/
def failures (ends : List (Hook σ × Option Fault)) : List Fault :=
  ends.filterMap fun e => e.2.map (Fault.during e.1.name)

/-- Nothing but that a call which is no run gets the lock. -/
def Happening.Quiet : Happening σ → Prop
  | locked _ .run => False
  | locked .. => True
  | _ => False

section

variable (h h' : List (Happening σ)) (i : Nat) (request : Request σ) (hook : Hook σ) (fault : Option Fault)

@[simp] theorem executed_locked : executed (h ++ [.locked i request]) = executed h := by
  simp [executed]

@[simp] theorem executed_began : executed (h ++ [.began i hook]) = executed h ++ [hook] := by
  simp [executed]

@[simp] theorem executed_ended : executed (h ++ [.ended i hook fault]) = executed h := by
  simp [executed]

@[simp] theorem outcomes_locked : outcomes (h ++ [.locked i request]) = outcomes h := by
  simp [outcomes]

@[simp] theorem outcomes_began : outcomes (h ++ [.began i hook]) = outcomes h := by
  simp [outcomes]

@[simp] theorem outcomes_ended : outcomes (h ++ [.ended i hook fault]) = outcomes h ++ [(hook, fault)] := by
  simp [outcomes]

theorem failures_concat (ends : List (Hook σ × Option Fault)) :
    failures (ends ++ [(hook, fault)]) = failures ends ++ (fault.map (Fault.during hook.name)).toList := by
  cases fault <;> simp [failures]

theorem executed_append : executed (h ++ h') = executed h ++ executed h' := List.filterMap_append

theorem outcomes_append : outcomes (h ++ h') = outcomes h ++ outcomes h' := List.filterMap_append

theorem offered_append : offered (h ++ h') = offered h ++ offered h' := List.flatMap_append

variable {h}

theorem executed_quiet (quiet : ∀ x ∈ h, x.Quiet) : executed h = [] := by
  rw [executed, List.filterMap_eq_nil_iff]
  intro x listed
  cases x with
  | began => exact absurd (quiet _ listed) id
  | _ => rfl

theorem outcomes_quiet (quiet : ∀ x ∈ h, x.Quiet) : outcomes h = [] := by
  rw [outcomes, List.filterMap_eq_nil_iff]
  intro x listed
  cases x with
  | ended => exact absurd (quiet _ listed) id
  | _ => rfl

end

/-! ### The lock -/

section

variable {calls : List (Request σ × Phase σ)} {i j : Nat} {request : Request σ} {phase : Phase σ} {call : Request σ × Phase σ}

theorem set_other (other : i ≠ j) : (calls.set i call)[j]? = calls[j]? := List.getElem?_set_ne other

theorem set_self (there : calls[i]? = some call) {call' : Request σ × Phase σ} : (calls.set i call')[i]? = some call' :=
  List.getElem?_set_self (List.getElem?_eq_some_iff.mp there).1

theorem position_ne {call' : Request σ × Phase σ} (here : calls[i]? = some call) (there : calls[j]? = some call')
    (other : call ≠ call') : i ≠ j := by
  rintro rfl
  exact other (Option.some.inj (here.symm.trans there))

theorem made_eq_some_iff : (calls ++ [call])[j]? = some (request, phase) ↔
    calls[j]? = some (request, phase) ∨ j = calls.length ∧ call = (request, phase) := by
  rw [List.getElem?_append, List.getElem?_singleton]
  split
  · next inside =>
    have before : j ≠ calls.length := by omega
    simp [before]
  · next outside =>
    have same : j - calls.length = 0 ↔ j = calls.length := by omega
    simp [same, outside]

/-- The lock is with the call that is inside, if there is one. -/
def Held (holder : Option Nat) (calls : List (Request σ × Phase σ)) : Prop :=
  ∀ j, holder = some j ↔ ∃ request, calls[j]? = some (request, .inside)

theorem Held.set {holder : Option Nat} (held : Held holder calls) {phase' : Phase σ}
    (there : calls[i]? = some (request, phase)) (out : phase ≠ .inside) (out' : phase' ≠ .inside) :
    Held holder (calls.set i (request, phase')) := by
  intro j
  rw [held j]
  by_cases same : i = j
  · subst same
    simp [set_self there, there, out, out']
  · rw [set_other same]

theorem Traffic.Move.held {t t' : Traffic σ} (move : t.Move t') (held : Held t.holder t.calls) :
    Held t'.holder t'.calls := by
  cases move with
  | idle => exact held
  | changed world => exact held
  | made request =>
    intro j
    simp [held j, made_eq_some_iff]
  | bare i there => exact held.set there (by simp) (by simp)
  | locked i request there free =>
    intro j
    have nobody : ¬ ∃ request, t.calls[j]? = some (request, .inside) := by
      rw [← held j, free]
      exact nofun
    by_cases same : i = j
    · subst same
      simp [set_self there]
    · simp [set_other same, same, nobody]
  | served i request there =>
    have holds := (held i).mpr ⟨request, there⟩
    intro j
    by_cases same : i = j
    · subst same
      cases request <;> simp [set_self there, Request.serve]
    · have nobody : ¬ ∃ request, t.calls[j]? = some (request, .inside) := by
        rw [← held j, holds]
        simpa using same
      simp [set_other same, nobody]
  | began i request hook hooks faults there => exact held.set there (by simp) (by simp)
  | ended i request hook hooks faults fault world there => exact held.set there (by simp) (by simp)
  | finished i request faults there => exact held.set there (by simp) (by simp)

end

/-! ### A run on its own -/

section

variable {t : Traffic σ} {faults : List Fault}

def Traffic.steps (t : Traffic σ) (n : Nat) : Traffic σ := t.play (List.replicate n (.advance 0))

theorem Traffic.steps_succ (t : Traffic σ) (n : Nat) : t.steps (n + 1) = (t.advance 0).steps n := rfl

theorem Traffic.steps_returned {answer : Answer} (finished : t.calls[0]? = some (.run, .returned answer)) (n : Nat) :
    t.steps n = t := by
  induction n with
  | zero => rfl
  | succ n ih => rw [steps_succ, advance_returned finished, ih]

def Traffic.outcome (t : Traffic σ) : List (Request σ × Phase σ) × Coordinator σ × σ := (t.calls, t.coordinator, t.world)

theorem Traffic.steps_hooks (hooks : List (Hook σ)) (alone : t.calls = [(.run, .between hooks faults)]) (n : Nat) :
    (t.steps (n + (2 * hooks.length + 1))).outcome =
      ([(.run, .returned (.outcome (Coordinator.joined (faults ++ ((Coordinator.runHooks hooks).run t.world).1))))],
        t.coordinator, ((Coordinator.runHooks hooks).run t.world).2) := by
  induction hooks generalizing t faults with
  | nil =>
    have there : t.calls[0]? = some (.run, .between [] faults) := by rw [alone, List.getElem?_cons_zero]
    have none : (Coordinator.runHooks []).run t.world = ([], t.world) := rfl
    rw [List.length_nil, steps_succ, advance_last there, steps_returned (set_self there), none, List.append_nil]
    simp [outcome, put, alone]
  | cons hook hooks ih =>
    have there : t.calls[0]? = some (.run, .between (hook :: hooks) faults) := by rw [alone, List.getElem?_cons_zero]
    have whole : (Coordinator.runHooks (hook :: hooks)).run t.world =
        (((hook.run.run t.world).1.map (Fault.during hook.name)).toList ++
            ((Coordinator.runHooks hooks).run (hook.run.run t.world).2).1,
          ((Coordinator.runHooks hooks).run (hook.run.run t.world).2).2) := rfl
    have count : n + (2 * (hook :: hooks).length + 1) = n + (2 * hooks.length + 1) + 1 + 1 := by
      rw [List.length_cons]
      omega
    rw [count, steps_succ, advance_between there, steps_succ, advance_within (set_self there), whole]
    refine (ih (congrArg (List.set · 0 _) (congrArg (List.set · 0 _) alone))).trans ?_
    rw [List.append_assoc]
    rfl

/-- One of the orders is that of a run that nothing else happens to. -/
theorem play_alone (c : Coordinator σ) (world : σ) :
    (Traffic.play { coordinator := c, world := world }
        (.start .run :: List.replicate (2 * c.hooks.length + 3) (.advance 0))).outcome =
      ([(.run, .returned (.outcome (c.run.run world).1.1))], (c.run.run world).1.2, (c.run.run world).2) := by
  let t : Traffic σ := { coordinator := c, world := world, calls := [(.run, .waiting)] }
  let u := (t.advance 0).advance 0
  have begun : u.calls = [(.run, .between c.take.1 [])] := by simp [u, t, Traffic.advance, Traffic.put, Request.serve]
  have coordinator : u.coordinator = c.take.2 := by simp [u, t, Traffic.advance, Traffic.put, Request.serve]
  have same : u.world = world := by simp [u, t, Traffic.advance, Traffic.put]
  have enough : c.take.1.length ≤ c.hooks.length := by
    unfold Coordinator.take
    split <;> simp
  have ended := Traffic.steps_hooks c.take.1 begun (2 * c.hooks.length - 2 * c.take.1.length)
  have count : 2 * c.hooks.length - 2 * c.take.1.length + (2 * c.take.1.length + 1) = 2 * c.hooks.length + 1 := by omega
  rw [count, coordinator, same, List.nil_append] at ended
  exact ended

end

end CallFusion.Shutdown
