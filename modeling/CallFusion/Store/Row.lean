import CallFusion.Fault
import CallFusion.Json.Decode
import CallFusion.Json.Parser
import CallFusion.Text.Columns
import CallFusion.Timestamp

/-!
Recorded runs and the rows that they are kept in. A row holds texts and numbers only: the time is written out, and so are
the diagnostics and the statistics, as JSON.
-/
namespace CallFusion

structure RunRecord where
  id : Nat := 0
  createdAt : Timestamp
  mode : String
  profile : String
  input : String
  output : String
  caller : String
  callee : String
  changed : Bool
  diagnostics : Option (List String)
  stats : Option (List (String × Int))
  deriving DecidableEq, Repr, Inhabited

structure RunRow where
  id : Nat
  createdAt : String
  mode : String
  profile : String
  input : String
  output : String
  caller : Option String
  callee : Option String
  changed : Int
  diagnostics : Option String
  stats : Option String
  deriving DecidableEq, Repr, Inhabited

namespace RunRecord

def dated (r : RunRecord) (now : Timestamp) : RunRecord := if r.createdAt = .zero then { r with createdAt := now } else r

def diagnosticsJson (r : RunRecord) : Json := .ofOption .ofTexts r.diagnostics

def statsJson (r : RunRecord) : Json :=
  .ofOption (fun s => .obj ((s.mergeSort fun a b => a.1 ≤ b.1).map fun (k, n) => (k, Json.ofInt n))) r.stats

def row (r : RunRecord) : String :=
  "\t".intercalate [toString r.id, r.createdAt.display, r.mode, r.profile, r.input, if r.changed then "true" else "false",
    toString (r.diagnostics.getD []).length] ++ "\n"

def table (runs : List RunRecord) : String :=
  Text.align ("ID\tWHEN\tMODE\tPROFILE\tINPUT\tCHANGED\tDIAGNOSTICS\n" ++ String.join (runs.map row))

end RunRecord

namespace RunRow

def ofRecord (id : Nat) (r : RunRecord) : RunRow where
  id := id
  createdAt := r.createdAt.text
  mode := r.mode
  profile := r.profile
  input := r.input
  output := r.output
  caller := some r.caller
  callee := some r.callee
  changed := if r.changed then 1 else 0
  diagnostics := some r.diagnosticsJson.stored
  stats := some r.statsJson.stored

/-- The value in a column of JSON; none where the column is null or empty, or holds a null. -/
def decoded {α : Type} (what : String) (item : Json → Option α) (column : Option String) : Except Fault (Option α) :=
  match column with
  | none | some "" => .ok none
  | some text =>
    match (Json.parse? text).bind (Json.optional? item) with
    | some value => .ok value
    | none => .error (.store ("failed to decode " ++ what) (some .malformed))

def read (r : RunRow) : Except Fault RunRecord := do
  let createdAt ← match Timestamp.parse? r.createdAt with
    | some t => .ok t
    | none => .error (.store "failed to parse created_at" (some (.plain (Timestamp.refusal r.createdAt))))
  let diagnostics ← decoded "diagnostics" (Json.list? Json.text?) r.diagnostics
  let stats ← decoded "stats" (Json.table? Json.integer?) r.stats
  return { id := r.id, createdAt := createdAt, mode := r.mode, profile := r.profile, input := r.input
           output := r.output, caller := r.caller.getD "", callee := r.callee.getD "", changed := r.changed ≠ 0
           diagnostics := diagnostics, stats := stats }

end RunRow
end CallFusion
