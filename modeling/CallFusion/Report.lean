import CallFusion.Bridge.Basic
import CallFusion.Diagnostic
import CallFusion.Ir.CallSite
import CallFusion.Ir.Payload
import CallFusion.Ir.References
import CallFusion.Ir.Uses
import CallFusion.Json.Decode
import CallFusion.Settings
import CallFusion.Store

/-!
JSON forms of what the library works with, for programs that read its findings. Numbers of 64 bits
are written as texts, since not every reader of JSON keeps them.
-/
namespace CallFusion

open Ir

namespace Json

def ofWord (n : UInt64) : Json := .str (toString n.toNat)

def time? (j : Json) : Option Timestamp := j.text?.bind Timestamp.parse?

end Json

def Diagnostic.json (d : Diagnostic) : Json := .obj [("kind", .str d.kind.text), ("message", .str d.message)]

def Diagnostics.json (ds : Diagnostics) : Json := .arr (ds.map Diagnostic.json)

def Ir.Function.blockText (f : Function) (id : LocalId) : String := (f.identOf id).shown

def Ir.placeJson (index : Option Nat) : Json := .ofInt ((index.map Int.ofNat).getD (-1))

def Ir.CallSite.members (s : CallSite) (m : Module) (f : Function) : List (String × Json) :=
  [("block", .str (f.blockText s.block)), ("index", placeJson s.index), ("kind", .str s.kind.text),
    ("args", .ofTexts (s.args.map (·.render (m.names (some f))))), ("type", .str s.type.text),
    ("target", .ofOption (.str ·.name) (m.calledFunction? f s))] ++
    match s.normal?, s.unwind? with
    | some n, some u => [("normal", .str (f.blockText n)), ("unwind", .str (f.blockText u))]
    | _, _ => []

def Ir.CallSite.json (s : CallSite) (m : Module) (f : Function) : Json := .obj (s.members m f)

def Ir.Use.json (u : Use) (f : Function) : Json :=
  .obj [("block", .str (f.blockText u.block)), ("index", placeJson u.index), ("meta", .bool u.debug)]

def Ir.Function.summaryJson (f : Function) (m : Module) : Json :=
  .obj [("name", .str f.name), ("intrinsic", .bool (isIntrinsic f.name)), ("declaration", .bool f.isDeclaration),
    ("sig", .str f.signature.text), ("refs", .ofNat (m.referenceCount f.id))]

def Ir.extentMembers (m : Module) (t : Ty) (known : String) : List (String × Json) :=
  let (size, align, sized) := match extent m.types t with
    | .sized s a => (s, a, true)
    | _ => (0, 0, false)
  [("type", .str t.text), ("size", .ofWord size), ("align", .ofWord align), (known, .bool sized)]

def Settings.members (s : Settings) : List (String × Json) :=
  [("profile", .str s.profile), ("log_level", .str s.logLevel), ("demangler", .str s.demangler.text),
    ("demangler_command", .str s.command), ("demangler_url", .str s.url), ("demangler_retries", .ofWord s.retries),
    ("demangler_backoff_ns", .str (toString s.backoff)), ("cache_path", .str s.cachePath),
    ("history_enabled", .bool s.history), ("telemetry_enabled", .bool s.telemetry),
    ("telemetry_url", .str s.telemetryUrl), ("payload_size", .ofWord s.payload.size),
    ("payload_align", .ofWord s.payload.align), ("string", .str s.text)]

namespace RunRecord

def json (r : RunRecord) : Json :=
  .obj [("id", .ofNat r.id), ("created_at", .str r.createdAt.text), ("mode", .str r.mode), ("profile", .str r.profile),
    ("input", .str r.input), ("output", .str r.output), ("caller", .str r.caller), ("callee", .str r.callee),
    ("changed", .bool r.changed), ("diagnostics", .ofOption .ofTexts r.diagnostics),
    ("stats", .ofOption (fun s => .obj (s.map fun (k, n) => (k, Json.ofInt n))) r.stats)]

def ofJson? (j : Json) : Option RunRecord := do
  return { id := (← (j.field "id").integer?).toNat, createdAt := ← (j.field "created_at").time?
           mode := ← (j.field "mode").text?, profile := ← (j.field "profile").text?
           input := ← (j.field "input").text?, output := ← (j.field "output").text?
           caller := ← (j.field "caller").text?, callee := ← (j.field "callee").text?
           changed := ← (j.field "changed").flag?
           diagnostics := ← (j.field "diagnostics").optional? (Json.list? Json.text?)
           stats := ← (j.field "stats").optional? (Json.table? Json.integer?) }

end RunRecord

namespace RunRow

def json (r : RunRow) : Json :=
  .obj [("id", .ofNat r.id), ("created_at", .str r.createdAt), ("mode", .str r.mode), ("profile", .str r.profile),
    ("input", .str r.input), ("output", .str r.output), ("caller", .ofOption .str r.caller),
    ("callee", .ofOption .str r.callee), ("changed", .ofInt r.changed), ("diagnostics", .ofOption .str r.diagnostics),
    ("stats", .ofOption .str r.stats)]

def ofJson? (j : Json) : Option RunRow := do
  return { id := (← (j.field "id").integer?).toNat, createdAt := ← (j.field "created_at").text?
           mode := ← (j.field "mode").text?, profile := ← (j.field "profile").text?
           input := ← (j.field "input").text?, output := ← (j.field "output").text?
           caller := ← (j.field "caller").optional? Json.text?, callee := ← (j.field "callee").optional? Json.text?
           changed := ← (j.field "changed").integer?
           diagnostics := ← (j.field "diagnostics").optional? Json.text?
           stats := ← (j.field "stats").optional? Json.text? }

end RunRow

namespace Store

def archive (s : Store) : String :=
  (Json.obj [("names", .obj (s.names.map fun (k, n) => (k, Json.str n))), ("runs", .arr (s.runs.map RunRow.json)),
    ("sequence", .ofNat s.sequence)]).compact

def ofArchive? (j : Json) : Option Store := do
  return { names := ← (j.field "names").table? Json.text?, runs := ← (j.field "runs").list? RunRow.ofJson?
           sequence := (← (j.field "sequence").integer?).toNat }

end Store
end CallFusion
