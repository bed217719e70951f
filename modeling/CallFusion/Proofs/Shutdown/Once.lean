import CallFusion.Proofs.Shutdown.Stages

/-!
The hooks that the first run has are run once each, the newest first, whatever else is called and whichever hooks fail.
-/

namespace CallFusion.Shutdown

variable {σ : Type}

section

variable {t t' : Traffic σ} {before : List (Happening σ)} {i : Nat} {phase : Phase σ}

/-! ### Whole plays -/

def Traffic.Closed (before : List (Happening σ)) (i : Nat) (t : Traffic σ) : Prop :=
  t.Taking before i ∨ ∃ after, t.Taken before i after

theorem Traffic.Closed.move (closed : t.Closed before i) (held : Held t.holder t.calls) (move : t.Move t') :
    t'.Closed before i := by
  rcases closed with taking | ⟨after, taken⟩
  · exact (taking.move held move).imp id fun taken => ⟨[], taken⟩
  · exact .inr (taken.move move)

/-- The lock is kept in order, and the calls are where they can be. -/
structure Traffic.Sound (t : Traffic σ) : Prop where
  held : Held t.holder t.calls
  stage : t.Open ∨ ∃ before i, t.Closed before i

theorem Traffic.Sound.move (sound : t.Sound) (move : t.Move t') : t'.Sound := by
  refine ⟨move.held sound.held, ?_⟩
  rcases sound.stage with opened | ⟨before, i, closed⟩
  · exact (opened.move sound.held move).imp id fun ⟨i, taking⟩ => ⟨t.history, i, .inl taking⟩
  · exact .inr ⟨before, i, closed.move sound.held move⟩

theorem Traffic.sound_start (world : σ) : Traffic.Sound { world := world } :=
  ⟨fun _ => by simp, .inl ⟨nofun, nofun, rfl, fun _ => rfl, nofun⟩⟩

theorem Traffic.play_sound (sound : t.Sound) (events : List (Event σ)) : (t.play events).Sound := by
  induction events generalizing t with
  | nil => exact sound
  | cons e events ih => exact ih (sound.move (t.happen_move e))

/-! ### The runner goes on -/

def Phase.stepsLeft (hooks : Nat) : Phase σ → Nat
  | .waiting | .inside => 2 * hooks + 2
  | .between rest _ => 2 * rest.length + 1
  | .within _ rest _ => 2 * rest.length + 2
  | .returned _ => 0

def Event.moves (i : Nat) : Event σ → Bool
  | .advance j => i == j
  | _ => false

theorem Traffic.advance_other {j : Nat} (other : i ≠ j) : (t.advance j).calls[i]? = t.calls[i]? := by
  unfold advance
  split
  · rfl
  · split
    · exact set_other (Ne.symm other)
    · split
      · rfl
      · exact set_other (Ne.symm other)
  · exact set_other (Ne.symm other)
  · exact set_other (Ne.symm other)
  · exact set_other (Ne.symm other)
  · exact set_other (Ne.symm other)
  · rfl

theorem Traffic.Closed.advance (closed : t.Closed before i) (runner : t.calls[i]? = some (.run, phase)) :
    ∃ phase', (t.advance i).calls[i]? = some (.run, phase') ∧
      phase'.stepsLeft (offered before).length ≤ phase.stepsLeft (offered before).length - 1 := by
  rcases closed with taking | ⟨after, taken⟩
  · cases taking.runner.symm.trans runner
    rw [advance_inside runner]
    refine ⟨_, set_self runner, ?_⟩
    simp [Request.serve, Coordinator.take, taking.done, taking.hooks, Phase.stepsLeft]
  · obtain ⟨phase', runner', serves⟩ := taken.runner
    cases runner'.symm.trans runner
    cases phase with
    | waiting => exact absurd rfl serves.ne_waiting
    | inside => exact absurd rfl serves.ne_inside
    | between rest faults =>
      cases rest with
      | nil =>
        rw [advance_last runner]
        exact ⟨_, set_self runner, Nat.zero_le _⟩
      | cons hook rest =>
        rw [advance_between runner]
        refine ⟨_, set_self runner, ?_⟩
        simp only [Phase.stepsLeft, List.length_cons]
        omega
    | within hook rest faults =>
      rw [advance_within runner]
      refine ⟨_, set_self runner, ?_⟩
      simp only [Phase.stepsLeft]
      omega
    | returned answer =>
      rw [advance_returned runner]
      exact ⟨_, runner, Nat.zero_le _⟩

theorem Traffic.Closed.happen (closed : t.Closed before i) (runner : t.calls[i]? = some (.run, phase)) (e : Event σ) :
    ∃ phase', (t.happen e).calls[i]? = some (.run, phase') ∧
      phase'.stepsLeft (offered before).length ≤ phase.stepsLeft (offered before).length - if e.moves i then 1 else 0 := by
  cases e with
  | start request => exact ⟨phase, made_eq_some_iff.mpr (.inl runner), Nat.le_refl _⟩
  | outside change => exact ⟨phase, runner, Nat.le_refl _⟩
  | advance j =>
    by_cases same : i = j
    · subst same
      obtain ⟨phase', there, left⟩ := closed.advance runner
      exact ⟨phase', there, by simpa [Event.moves] using left⟩
    · refine ⟨phase, (advance_other same).trans runner, ?_⟩
      simp [Event.moves, same]

theorem Traffic.Closed.play (closed : t.Closed before i) (sound : t.Sound) (runner : t.calls[i]? = some (.run, phase))
    (events : List (Event σ)) : ∃ phase', (t.play events).calls[i]? = some (.run, phase') ∧
      phase'.stepsLeft (offered before).length ≤ phase.stepsLeft (offered before).length - events.countP (·.moves i) := by
  induction events generalizing t phase with
  | nil => exact ⟨phase, runner, Nat.le_refl _⟩
  | cons e events ih =>
    obtain ⟨phase', runner', left⟩ := closed.happen runner e
    have closed' := closed.move sound.held (t.happen_move e)
    obtain ⟨last, there, left'⟩ := ih closed' (sound.move (t.happen_move e)) runner'
    refine ⟨last, there, ?_⟩
    rw [List.countP_cons]
    omega

theorem Phase.stepsLeft_eq_zero {n : Nat} (none : phase.stepsLeft n = 0) : ∃ answer, phase = .returned answer := by
  cases phase with
  | returned answer => exact ⟨answer, rfl⟩
  | _ => simp [stepsLeft] at none

end

/-! ### Faults together -/

section

variable {fs : List Fault} {f : Fault}

theorem joined_isSome (f : Fault) (rest : List Fault) : ∃ g, Coordinator.joined (f :: rest) = some g := by
  cases rest with
  | nil => exact ⟨f, rfl⟩
  | cons g rest =>
    cases joined : Coordinator.joined (g :: rest) with
    | none => exact ⟨f, by simp [Coordinator.joined, joined]⟩
    | some h => exact ⟨.both f h, by simp [Coordinator.joined, joined]⟩

theorem joined_eq_none_iff : Coordinator.joined fs = none ↔ fs = [] := by
  cases fs with
  | nil => simp [Coordinator.joined]
  | cons f rest =>
    obtain ⟨g, joined⟩ := joined_isSome f rest
    simp [joined]

theorem joined_message (joined : Coordinator.joined fs = some f) : f.message = "\n".intercalate (fs.map Fault.message) := by
  induction fs generalizing f with
  | nil => cases joined
  | cons g rest ih =>
    cases rest with
    | nil =>
      cases joined
      simp
    | cons g' rest =>
      obtain ⟨h, later⟩ := joined_isSome g' rest
      obtain rfl : f = .both g h := by simpa [Coordinator.joined, later, eq_comm] using joined
      calc (Fault.both g h).message = g.message ++ "\n" ++ h.message := by rw [Fault.message]
        _ = g.message ++ "\n" ++ "\n".intercalate ((g' :: rest).map Fault.message) := by rw [ih later]
        _ = "\n".intercalate ((g :: g' :: rest).map Fault.message) := by
          rw [List.map_cons, List.map_cons, List.map_cons, String.intercalate_cons_cons]

theorem failures_eq_nil_iff {ends : List (Hook σ × Option Fault)} : failures ends = [] ↔ ∀ e ∈ ends, e.2 = none := by
  simp [failures]

end

/-! ### The first run and the others -/

section

variable {t : Traffic σ} {before before' after after' : List (Happening σ)} {i i' : Nat}

theorem first_unique (same : before ++ Happening.locked i .run :: after = before' ++ .locked i' .run :: after')
    (first : ∀ j, .locked j .run ∉ before) (first' : ∀ j, .locked j .run ∉ before') :
    before = before' ∧ i = i' ∧ after = after' := by
  induction before generalizing before' with
  | nil =>
    cases before' with
    | nil => simpa using same
    | cons x before' =>
      cases (List.cons.inj same).1
      exact absurd (.head _) (first' i)
  | cons x before ih =>
    cases before' with
    | nil =>
      cases (List.cons.inj same).1
      exact absurd (.head _) (first i')
    | cons y before' =>
      obtain ⟨rfl, later⟩ := List.cons.inj same
      obtain ⟨rfl, rest⟩ := ih later (fun j listed => first j (.tail _ listed)) fun j listed => first' j (.tail _ listed)
      exact ⟨rfl, rest⟩

theorem first_of_quiet (quiet : ∀ x ∈ before, x.Quiet) (j : Nat) : .locked j .run ∉ before :=
  fun listed => quiet _ listed

theorem Traffic.Sound.closed (sound : t.Sound) (parts : t.history = before ++ .locked i .run :: after)
    (first : ∀ j, .locked j .run ∉ before) : (t.Taking before i ∧ after = []) ∨ t.Taken before i after := by
  rcases sound.stage with opened | ⟨before', i', taking | ⟨after', taken⟩⟩
  · have quiet := opened.quiet (.locked i .run)
    rw [parts] at quiet
    exact absurd (quiet (by simp)) id
  · obtain ⟨rfl, rfl, rfl⟩ := first_unique (parts.symm.trans taking.history) first (first_of_quiet taking.quiet)
    exact .inl ⟨taking, rfl⟩
  · obtain ⟨rfl, rfl, rfl⟩ := first_unique (parts.symm.trans taken.history) first (first_of_quiet taken.quiet)
    exact .inr taken

theorem executed_first (quiet : ∀ x ∈ before, x.Quiet) : executed (before ++ .locked i .run :: after) = executed after := by
  rw [executed_append, executed_quiet quiet]
  rfl

theorem outcomes_first (quiet : ∀ x ∈ before, x.Quiet) : outcomes (before ++ .locked i .run :: after) = outcomes after := by
  rw [outcomes_append, outcomes_quiet quiet]
  rfl

theorem failures_messages (ends : List (Hook σ × Option Fault)) :
    (failures ends).map Fault.message = ends.filterMap fun e => e.2.map fun f => e.1.name ++ ": " ++ f.message := by
  rw [failures, List.map_filterMap]
  congr 1
  funext e
  cases e.2 with
  | none => rfl
  | some f => simp [Fault.message]

theorem Serves.started {hooks : List (Hook σ)} {phase : Phase σ} (serves : Serves hooks after phase) :
    executed after <+: hooks := by
  cases phase with
  | waiting => exact absurd rfl serves.ne_waiting
  | inside => exact absurd rfl serves.ne_inside
  | between rest faults => exact ⟨rest, serves.1⟩
  | within hook rest faults => exact ⟨rest, serves.1⟩
  | returned answer => exact ⟨[], by rw [List.append_nil, serves.1]⟩

theorem Serves.stepsLeft_le {hooks : List (Hook σ)} {phase : Phase σ} (serves : Serves hooks after phase) :
    phase.stepsLeft hooks.length ≤ 2 * hooks.length + 2 := by
  have enough : ∀ rest : List (Hook σ), executed after ++ rest = hooks → rest.length ≤ hooks.length := by
    rintro rest rfl
    simp
  cases phase with
  | between rest faults =>
    have shorter := enough rest serves.1
    simp only [Phase.stepsLeft]
    omega
  | within hook rest faults =>
    have shorter := enough rest serves.1
    simp only [Phase.stepsLeft]
    omega
  | _ => simp [Phase.stepsLeft]

/-- What the first run did, given what happened before and after it got the lock, and what other calls found. -/
structure Traffic.Once (t : Traffic σ) (before : List (Happening σ)) (i : Nat) (after : List (Happening σ)) : Prop where
  /-- No other run runs a hook. -/
  alone : ∀ j hook, .began j hook ∈ t.history → j = i
  /-- The newest hook comes first. -/
  order : executed t.history <+: (offered before).reverse
  /-- In the end every hook was run, and the answer tells of those that failed. -/
  whole : ∀ answer, t.calls[i]? = some (.run, .returned answer) →
    executed t.history = (offered before).reverse ∧ (outcomes t.history).map (·.1) = (offered before).reverse ∧
    answer = .outcome (Coordinator.joined (failures (outcomes t.history)))
  others : ∀ j answer, j ≠ i → t.calls[j]? = some (.run, .returned answer) → answer = .outcome none
  sizes : ∀ j answer, .locked j .size ∈ after → t.calls[j]? = some (.size, .returned answer) → answer = .size 0
  size : t.holder ≠ some i → t.coordinator.size = 0
  /-- A hook finds the lock free or with another call. -/
  unlocked : ∀ hook hooks faults, t.calls[i]? = some (.run, .within hook hooks faults) → t.holder ≠ some i
  /-- Nothing keeps the run from its end. -/
  ends : ∀ later, 2 * (offered before).length + 2 ≤ later.countP (·.moves i) →
    ∃ answer, (t.play later).calls[i]? = some (.run, .returned answer)

theorem Traffic.Closed.ends (closed : t.Closed before i) (sound : t.Sound) {later : List (Event σ)}
    (enough : 2 * (offered before).length + 2 ≤ later.countP (·.moves i)) :
    ∃ answer, (t.play later).calls[i]? = some (.run, .returned answer) := by
  have underway : ∃ phase, t.calls[i]? = some (.run, phase) ∧
      phase.stepsLeft (offered before).length ≤ 2 * (offered before).length + 2 := by
    rcases closed with taking | ⟨after, taken⟩
    · exact ⟨_, taking.runner, Nat.le_refl _⟩
    · obtain ⟨phase, runner, serves⟩ := taken.runner
      exact ⟨phase, runner, by simpa using serves.stepsLeft_le⟩
  obtain ⟨phase, runner, bound⟩ := underway
  obtain ⟨last, there, left⟩ := closed.play sound runner later
  have spent : last.stepsLeft (offered before).length = 0 := by omega
  obtain ⟨answer, rfl⟩ := Phase.stepsLeft_eq_zero spent
  exact ⟨answer, there⟩

theorem Traffic.Sound.unlocked (sound : t.Sound) {request : Request σ} {phase : Phase σ}
    (there : t.calls[i]? = some (request, phase)) (outside : phase ≠ .inside) : t.holder ≠ some i := by
  intro holds
  obtain ⟨request', inside⟩ := (sound.held i).mp holds
  cases there.symm.trans inside
  exact outside rfl

theorem Traffic.Taking.once (taking : t.Taking before i) (sound : t.Sound) : t.Once before i [] := by
  have holds := (sound.held i).mpr ⟨.run, taking.runner⟩
  have nothing : executed t.history = [] := by rw [taking.history, executed_locked, executed_quiet taking.quiet]
  constructor
  case alone =>
    intro j hook listed
    have earlier : .began j hook ∈ before := by simpa [taking.history] using listed
    exact absurd (taking.quiet _ earlier) id
  case order => simp [nothing]
  case whole =>
    intro answer returned
    cases returned.symm.trans taking.runner
  case others =>
    intro j answer other returned
    exact (taking.calls j _ returned (by simpa using Ne.symm other)).late
  case sizes => exact nofun
  case size => exact fun free => absurd holds free
  case unlocked => exact fun hook hooks faults there => sound.unlocked there (by simp)
  case ends => exact fun later enough => Traffic.Closed.ends (.inl taking) sound enough

theorem Traffic.Taken.once (taken : t.Taken before i after) (sound : t.Sound) : t.Once before i after := by
  obtain ⟨phase, runner, serves⟩ := taken.runner
  constructor
  case alone =>
    intro j hook listed
    rw [taken.history] at listed
    rcases List.mem_append.mp listed with earlier | later
    · exact absurd (taken.quiet _ earlier) id
    · exact taken.owner j hook (by simpa using later)
  case order =>
    rw [taken.history, executed_first taken.quiet]
    exact serves.started
  case whole =>
    intro answer returned
    cases returned.symm.trans runner
    rw [taken.history, executed_first taken.quiet, outcomes_first taken.quiet]
    exact serves
  case others =>
    intro j answer other returned
    exact taken.calls j _ returned (by simpa using Ne.symm other)
  case sizes =>
    intro j answer listed returned
    rcases taken.sizes j listed with inside | counted
    · cases returned.symm.trans inside
    · cases returned.symm.trans counted
      rfl
  case size => simp [Coordinator.size, taken.done]
  case unlocked => exact fun hook hooks faults there => sound.unlocked there (by simp)
  case ends => exact fun later enough => Traffic.Closed.ends (.inr ⟨after, taken⟩) sound enough

/-- What the answer of the first run says. -/
theorem answer_says (ends : List (Hook σ × Option Fault)) :
    (Coordinator.joined (failures ends) = none ↔ ∀ e ∈ ends, e.2 = none) ∧
    ∀ fault, Coordinator.joined (failures ends) = some fault → fault.message = "\n".intercalate
      (ends.filterMap fun e => e.2.map fun f => e.1.name ++ ": " ++ f.message) := by
  constructor
  · rw [joined_eq_none_iff, failures_eq_nil_iff]
  · intro fault joined
    rw [joined_message joined, failures_messages]

/-- However the steps of calls meet, also of calls that hooks make. One of the orders is that of a run that nothing else
happens to, which is how programs run the hooks. -/
theorem hooks_run_once (world : σ) (events : List (Event σ)) :
    let t := Traffic.play { world := world } events
    (∀ c : Coordinator σ, (Traffic.play { coordinator := c, world := world }
        (.start .run :: List.replicate (2 * c.hooks.length + 3) (.advance 0))).outcome =
      ([(.run, .returned (.outcome (c.run.run world).1.1))], (c.run.run world).1.2, (c.run.run world).2)) ∧
    ((∀ j, .locked j .run ∉ t.history) → executed t.history = []) ∧
    ∀ before i after, t.history = before ++ .locked i .run :: after → (∀ j, .locked j .run ∉ before) →
      t.Once before i after ∧
      (Coordinator.joined (failures (outcomes t.history)) = none ↔ ∀ e ∈ outcomes t.history, e.2 = none) ∧
      ∀ fault, Coordinator.joined (failures (outcomes t.history)) = some fault → fault.message = "\n".intercalate
        ((outcomes t.history).filterMap fun e => e.2.map fun f => e.1.name ++ ": " ++ f.message) := by
  intro t
  have sound : t.Sound := Traffic.play_sound (Traffic.sound_start world) events
  refine ⟨fun c => play_alone c world, ?_, ?_⟩
  · intro quiet
    rcases sound.stage with opened | ⟨before, i, taking | ⟨after, taken⟩⟩
    · exact executed_quiet opened.quiet
    · exact absurd (by simp [taking.history]) (quiet i)
    · exact absurd (by simp [taken.history]) (quiet i)
  · intro before i after parts first
    refine ⟨?_, answer_says (outcomes t.history)⟩
    rcases sound.closed parts first with ⟨taking, rfl⟩ | taken
    · exact taking.once sound
    · exact taken.once sound

end

/-- Of two hooks the newer one fails. While it is under way it registers another one and asks for a run, both in vain. -/
example :
    let hook (name : String) (fault : Option Fault) : Hook Unit := ⟨name, return fault⟩
    let t := Traffic.play { world := () } [.start (.register (some (hook "a" none))), .advance 0, .advance 0,
      .start (.register (some (hook "b" (some (.plain "stuck"))))), .advance 1, .advance 1,
      .start .run, .advance 2, .advance 2, .advance 2,
      .start (.register (some (hook "c" none))), .advance 3, .advance 3, .start .run, .advance 4, .advance 4, .advance 4,
      .advance 2, .advance 2, .advance 2, .advance 2]
    (executed t.history).map (·.name) = ["b", "a"] ∧
    t.calls.map (·.2) = [.returned .registered, .returned .registered,
      .returned (.outcome (some (.during "b" (.plain "stuck")))), .returned .registered, .returned (.outcome none)] :=
  ⟨rfl, rfl⟩

end CallFusion.Shutdown
