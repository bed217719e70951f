import CallFusion.Proofs.Merge.Search

/-!
What searches have to report. A locator only ever complains about its bridge, and a plan for the marshalling
calls comes with notes and nothing more severe.
-/

namespace CallFusion

open Ir

variable {σ α β : Type}

def Keeps (P : σ → Prop) (act : StateM σ α) : Prop := ∀ s, P s → P (act.run s).2

namespace Keeps

variable {P : σ → Prop}

theorem pure (a : α) : Keeps P (Pure.pure a : StateM σ α) := fun _ holds => holds

theorem bind {act : StateM σ α} {next : α → StateM σ β} (first : Keeps P act) (second : ∀ a, Keeps P (next a)) :
    Keeps P (act >>= next) :=
  fun s holds => second _ _ (first s holds)

end Keeps

/-- All that a locator has reported is that its bridge was of no help. -/
def Locator.Quiet (l : Locator σ) : Prop := ∀ d ∈ l.diagnostics, d.kind = .dependencyUnavailable

namespace Locator

theorem new_quiet (suffixes : List String) (state : σ) : (new suffixes state).Quiet := fun _ listed => nomatch listed

theorem logical_quiet (bridge : Bridge σ) (symbol : String) : Keeps Quiet (logical bridge symbol) := by
  intro l quiet
  simp only [logical, run_bind]
  split
  · exact quiet
  · intro d listed
    rcases List.mem_append.mp listed with old | new
    · exact quiet d old
    · split at new
      · rw [List.mem_singleton.mp new]
        rfl
      · cases new

theorem logical_silent (symbol : String) :
    Keeps (fun l : Locator Unit => l.diagnostics = []) (logical Bridge.inProcess symbol) := by
  intro l silent
  simp only [logical, run_bind]
  split
  · exact silent
  · exact (List.append_nil _).trans silent

end Locator

section

variable {bridge : Bridge σ} {P : Locator σ → Prop}

-- A search changes a locator by nothing but the names that it asks for.
variable (named : ∀ symbol, Keeps P (Locator.logical bridge symbol))

include named

theorem Locator.calleeName_keeps (m : Module) (f : Function) (site : CallSite) : Keeps P (calleeName bridge m f site) := by
  unfold calleeName
  split
  · exact named _
  · exact .pure _

theorem Locator.matchSites_keeps (m : Module) (f : Function) (kind : CallKind) (test : CallSite → String → Bool)
    (sites : List CallSite) : Keeps P (matchSites bridge m f kind test sites) := by
  induction sites with
  | nil => exact .pure _
  | cons site rest ih =>
    rw [matchSites]
    split
    · exact ih
    · refine (calleeName_keeps named m f site).bind fun name => ?_
      split
      · exact .pure _
      · exact ih

variable (m : Module) (p : Profile) (caller callee : String)

theorem rpcIn_keeps (fs : List Function) : Keeps P (rpcIn bridge m p callee fs) := by
  induction fs with
  | nil => exact .pure _
  | cons f fs ih =>
    refine (Locator.matchSites_keeps named m f _ _ _).bind fun found => ?_
    split
    · exact .pure _
    · exact ih

theorem findRpc_keeps : Keeps P (findRpc bridge m p caller callee) := by
  rw [findRpc]
  split
  · exact .pure _
  · refine (rpcIn_keeps named m p callee _).bind fun found => ?_
    split
    · exact .pure _
    · exact .pure _

theorem findCall_keeps (f : Function) (name : String) : Keeps P (MarshallingPlan.findCall bridge m f name) := by
  refine (Locator.matchSites_keeps named m f _ _ _).bind fun found => ?_
  split
  · exact .pure _
  · exact Locator.matchSites_keeps named m f _ _ _

theorem make_keeps (f : Option Function) (names : MarshallingNames) (payload : Payload) :
    Keeps P (MarshallingPlan.make bridge m f names payload) := by
  rw [MarshallingPlan.make]
  split
  · exact .pure _
  · extract_lets size
    refine (findCall_keeps named m _ _).bind fun receive => ?_
    extract_lets noted
    refine (findCall_keeps named m _ _).bind fun send => ?_
    split
    · exact .pure _
    · split
      · extract_lets received
        clear_value received
        split
        · exact .pure _
        · split
          · exact .pure _
          · exact .pure _
      · exact .pure _

theorem planMerge_keeps : Keeps P (planMerge bridge p caller callee m) := by
  rw [planMerge]
  split
  · exact .pure _
  · split
    · exact .pure _
    · dsimp only
      split
      · exact .pure _
      · split
        · exact .pure _
        · refine (findRpc_keeps named m p caller callee).bind fun found => ?_
          split
          · exact .pure _
          · split
            · exact .pure _
            · split
              · exact .pure _
              · split
                · exact .pure _
                · exact (make_keeps named m _ _ _).bind fun _ => .pure _

end

/-- Nothing more severe than a note is among the diagnostics. -/
def Diagnostics.Notes (ds : Diagnostics) : Prop := ∀ d ∈ ds, d.kind = .note

theorem Diagnostics.Notes.nil : Diagnostics.Notes [] := fun _ listed => nomatch listed

theorem Diagnostics.Notes.single (text : String) : Diagnostics.Notes [.note text] := by
  intro d listed
  rw [List.mem_singleton.mp listed]
  rfl

theorem Diagnostics.Notes.append {ds es : Diagnostics} (first : Diagnostics.Notes ds) (second : Diagnostics.Notes es) :
    Diagnostics.Notes (ds ++ es) :=
  fun d listed => (List.mem_append.mp listed).elim (first d) (second d)

theorem copySize_notes {m : Module} {f : Function} {payload : Payload} {site : CallSite} {buffer : Param} {size : UInt64}
    {ds : Diagnostics} (sized : MarshallingPlan.copySize m f payload site buffer = .ok (size, ds)) :
    Diagnostics.Notes ds := by
  unfold MarshallingPlan.copySize at sized
  dsimp only at sized
  split at sized
  · cases sized
  · split at sized
    · split at sized
      · cases sized
      · split at sized
        · cases sized
        · split at sized
          · cases sized
            exact .nil
          · cases sized
            exact .single _
    · cases sized

theorem copySize_error {m : Module} {f : Function} {payload : Payload} {site : CallSite} {buffer : Param} {d : Diagnostic}
    (refused : MarshallingPlan.copySize m f payload site buffer = .error d) : d.kind ≠ .note := by
  unfold MarshallingPlan.copySize at refused
  dsimp only at refused
  split at refused
  · cases refused
    nofun
  · split at refused
    · split at refused
      · cases refused
        nofun
      · split at refused
        · cases refused
          nofun
        · split at refused <;> cases refused
    · cases refused
      nofun

end CallFusion
