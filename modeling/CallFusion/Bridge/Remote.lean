import CallFusion.Bridge.Basic
import CallFusion.Bridge.Url
import CallFusion.Json.Fields
import CallFusion.Text.Quoted

/-!
A bridge to a remote service, asked by JSON-RPC over HTTP. What cannot be understood is asked
again; what the service refuses is not.
-/
namespace CallFusion

def rpcVersion : String := "2.0"

def rpcService : String := "Demangler"
def rpcMethod : String := "Demangle"

structure Question where
  http : String := "POST"
  contentType : String := "application/json"
  version : String := rpcVersion
  method : String := rpcService ++ "." ++ rpcMethod
  symbol : String
  deriving Repr, Inhabited

def Question.params (q : Question) : Json := .obj [("symbol", .str q.symbol)]

def Question.body (q : Question) (id : Nat) : String :=
  (Json.obj [("jsonrpc", .str q.version), ("method", .str q.method), ("params", q.params), ("id", .ofNat id)]).compact

inductive Exchange where
  | failed (cause : Fault)
  | answered (status : Nat) (body : String)
  deriving Repr, Inhabited

structure Remote (σ : Type) where
  url : String
  retries : UInt64
  post : Question → StateM σ Exchange
  cancelled : σ → Bool

namespace Remote

variable {σ : Type}

def refusal (written : String) : Fault :=
  .plain <| match Json.parse? written with
    | some (.obj fields) =>
      if Json.isIntegerField "code" fields then (Json.textField? "message" fields).getD written else written
    | _ => written

def resultOf (body : String) : Attempt String :=
  match Json.first? body with
  | some (.null, _) => .failed (.plain "result is null")
  | some (.obj fields, _) =>
    if (Json.textField? "jsonrpc" fields).isNone then .failed .malformed
    else match Json.writtenField? "error" body with
      | some written => .refused (refusal written)
      | none => match Json.writtenField? "result" body with
        | some written => .done written
        | none => .failed (.plain "result is null")
  | _ => .failed .malformed

def resultIn (url : String) : Exchange → Attempt String
  | .failed cause => .failed (.during ("Post " ++ Text.quoted url) cause)
  | .answered status body =>
    if 500 ≤ status then .failed (.plain ("bridge returned status " ++ toString status)) else resultOf body

/-- Reads the name in a result over the name that is known, and says whether the result is well formed. -/
def nameOver (known written : String) : String × Bool :=
  match Json.parse? written with
  | some (.obj fields) => Json.textOver known "name" fields
  | _ => (known, false)

/-- One attempt, with the name that is known so far, which stays known if the attempt fails. An address that
cannot be read is not asked. -/
def attempt (r : Remote σ) (symbol : String) : StateM (σ × String) (Attempt String) := do
  match Url.read r.url with
  | .error cause => return .refused cause
  | .ok url =>
    let (s, known) ← get
    let (exchange, s) := (r.post { symbol := symbol }).run s
    match resultIn url.shown exchange with
    | .done written =>
      let (name, fits) := nameOver known written
      set (s, name)
      return if fits then .done name else .failed .malformed
    | outcome =>
      set (s, known)
      return outcome

/-- Asks the service; an empty symbol is its own name, and so is one the service has no name for. -/
def bridge (r : Remote σ) : Bridge σ := fun symbol => do
  if symbol.isEmpty then return ⟨symbol, none⟩
  let (answer, s, _) := (Attempt.repeated (fun s => r.cancelled s.1) (r.attempt symbol) r.retries.toNat).run (← get, "")
  set s
  return Attempt.reply symbol (answer.map fun name => if name.isEmpty then symbol else name)

end Remote
end CallFusion
