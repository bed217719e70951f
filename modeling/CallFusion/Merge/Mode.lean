import CallFusion.Diagnostic
import CallFusion.Fault
import CallFusion.Text.Quoted

/-! Transformation modes, and what a run reports: whether it changed the module, what it found, how much it edited. -/
namespace CallFusion

inductive Mode where
  | renameCaller
  | renameCallee
  | mergeCallee
  | mergeExisting
  /-- `mergeExisting` under the Go profile. -/
  | replaceStub
  | unknown (code : Int)
  deriving DecidableEq, Repr, Inhabited

namespace Mode

def text : Mode → String
  | renameCaller => "rename-caller"
  | renameCallee => "rename-callee"
  | mergeCallee => "merge-callee"
  | mergeExisting => "merge-existing"
  | replaceStub => "replace-make-rpc"
  | unknown code => "mode(" ++ toString code ++ ")"

def all : List Mode := [renameCaller, renameCallee, mergeCallee, mergeExisting, replaceStub]

def ofCode (n : Int) : Mode := if n < 1 then unknown n else (all[n.toNat - 1]?).getD (unknown n)

def code : Mode → Int
  | renameCaller => 1
  | renameCallee => 2
  | mergeCallee => 3
  | mergeExisting => 4
  | replaceStub => 5
  | unknown n => n

def parse (s : String) : Except Fault Mode :=
  match all.find? (·.text == s) with
  | some m => .ok m
  | none =>
    if s == "merge-existing-callee" then .ok mergeExisting
    else .error (.configuration ("unknown mode " ++ Text.quoted s) none)

end Mode

structure Stats where
  renamed : Nat := 0
  cloned : Nat := 0
  erased : Nat := 0
  replaced : Nat := 0
  elided : Nat := 0
  deriving DecidableEq, Repr, Inhabited

def Stats.entries (s : Stats) : List (String × Nat) :=
  [("call_sites_replaced", s.replaced), ("functions_cloned", s.cloned), ("functions_erased", s.erased),
    ("functions_renamed", s.renamed), ("marshalling_elided", s.elided)]

structure Outcome where
  mode : Mode
  changed : Bool := false
  diagnostics : Diagnostics := []
  stats : Stats := {}
  deriving Repr, Inhabited

def Outcome.summary (o : Outcome) : String :=
  if o.changed then
    o.mode.text ++ ": renamed " ++ toString o.stats.renamed ++ ", cloned " ++ toString o.stats.cloned ++
      ", erased " ++ toString o.stats.erased ++ " functions; replaced " ++ toString o.stats.replaced ++
      " call sites; elided " ++ toString o.stats.elided ++ " marshalling calls"
  else o.mode.text ++ ": no changes (" ++ toString o.diagnostics.length ++ " diagnostics)"

end CallFusion
