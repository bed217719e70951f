import CallFusion.Bridge.Basic
import CallFusion.Diagnostic
import CallFusion.Ir.CallSite

/-!
Finding call sites by the logical name of what they call. A locator asks a demangling bridge for
each symbol once, remembers the answer, and falls back to the raw name when the bridge fails.
-/
namespace CallFusion

open Ir CallFusion.Symbol

/-- Names found so far, newest first, and what went wrong on the way, in order. -/
structure Locator (σ : Type) where
  suffixes : List String
  names : List (String × String)
  diagnostics : Diagnostics
  bridge : σ

namespace Locator

variable {σ : Type}

def new (suffixes : List String) (bridge : σ) : Locator σ := ⟨suffixes.filter (· != ""), [], [], bridge⟩

/-- Removes the first suffix that leaves something of the name. -/
def stripWith (suffixes : List String) (name : String) : String :=
  match suffixes with
  | [] => name
  | s :: rest =>
    let ending := "_" ++ s
    if name.endsWith ending && name != ending then (name.dropEnd ending.length).toString
    else stripWith rest name

def stripSuffix (l : Locator σ) (name : String) : String := stripWith l.suffixes name

/-- The logical name of a symbol: what the bridge makes of it without its suffix, less a hash. -/
def logical (bridge : Bridge σ) (symbol : String) : StateM (Locator σ) String := do
  let l ← get
  match l.names.find? (·.1 == symbol) with
  | some (_, name) => return name
  | none =>
    let base := l.stripSuffix symbol
    let (reply, state) := (bridge base).run l.bridge
    let found := match reply.fault with
      | some fault => [Diagnostic.unavailable ("could not demangle '" ++ base ++ "': " ++ fault.message)]
      | none => []
    let raw := if reply.fault.isSome || reply.name.isEmpty then base else reply.name
    let name := stripHash raw
    set { l with
      names := (symbol, name) :: l.names
      diagnostics := l.diagnostics ++ found
      bridge := state }
    return name

def calleeName (bridge : Bridge σ) (m : Module) (f : Function) (site : CallSite) :
    StateM (Locator σ) String := do
  match m.calledFunction? f site with
  | some target => logical bridge target.name
  | none => return ""

def matchSites (bridge : Bridge σ) (m : Module) (f : Function) (kind : CallKind)
    (test : CallSite → String → Bool) : List CallSite → StateM (Locator σ) (Option CallSite)
  | [] => return none
  | site :: rest => do
    if !site.accepts kind then matchSites bridge m f kind test rest
    else
      let name ← calleeName bridge m f site
      if name != "" && test site name then return some site
      else matchSites bridge m f kind test rest

def findMatch (bridge : Bridge σ) (m : Module) (f : Function) (kind : CallKind)
    (test : CallSite → String → Bool) : StateM (Locator σ) (Option CallSite) :=
  matchSites bridge m f kind test f.callSites

def findByStart (bridge : Bridge σ) (m : Module) (f : Function) (start : String) (kind : CallKind) :
    StateM (Locator σ) (Option CallSite) :=
  findMatch bridge m f kind fun _ name => name.startsWith start

def findByName (bridge : Bridge σ) (m : Module) (f : Function) (wanted : String) (kind : CallKind) :
    StateM (Locator σ) (Option CallSite) :=
  findMatch bridge m f kind fun _ name => name == wanted

end Locator

def findCalled (m : Module) (caller callee : Function) : Option CallSite :=
  caller.callSites.find? fun site => ((m.calledFunction? caller site).map (·.id)) == some callee.id

structure Bootstrap where
  site : CallSite
  target : Function

/-- The first of the call sites whose first argument is a function. Calls with another first
argument are passed over and reported. -/
def bootstrapIn (m : Module) (entry : Function) : List CallSite → Option Bootstrap × Diagnostics
  | [] => (none, [])
  | site :: rest =>
    match m.calledFunction? entry site, site.arg? 0 with
    | some callee, some first =>
      if isIntrinsic callee.name then bootstrapIn m entry rest
      else match m.argumentFunction? entry first with
        | some target => (some ⟨site, target⟩, [])
        | none =>
          let (found, ds) := bootstrapIn m entry rest
          (found, .structural ("skipping call to '" ++ callee.name ++ "' in '" ++ entry.name ++
            "': first argument is not a function") :: ds)
    | _, _ => bootstrapIn m entry rest

def findBootstrap (m : Module) (entry : Function) : Option Bootstrap × Diagnostics :=
  bootstrapIn m entry entry.callSites

/-- The target of the last direct call in `entry` that is no intrinsic. -/
def findRuntimeStart (m : Module) (entry : Function) : Option Function :=
  entry.callSites.reverse.findSome? fun site =>
    match m.calledFunction? entry site with
    | some f => if isIntrinsic f.name then none else some f
    | none => none

end CallFusion
