import CallFusion.Bridge.Remote

/-!
The service that answers remote bridges: a JSON-RPC endpoint and one that says the service is alive.
-/
namespace CallFusion

open Text

structure HttpRequest where
  method : String
  target : String
  headers : List (String × String)
  body : String
  deriving Repr, Inhabited

inductive HttpBody where
  | text (s : String)
  | json (j : Json)
  deriving Repr, Inhabited

structure HttpResponse where
  status : Nat
  contentType : String
  body : HttpBody
  deriving Repr, Inhabited

namespace HttpRequest

def header (r : HttpRequest) (name : String) : String :=
  ((r.headers.find? fun h => lower h.1 == lower name).map (·.2)).getD ""

def localTarget (r : HttpRequest) : List Char :=
  let cs := octets r.target
  match cs with
  | '/' :: _ => cs
  | _ =>
    let scheme := cs.takeWhile Char.isAlphanum
    match cs.drop scheme.length with
    | ':' :: '/' :: '/' :: rest => rest.dropWhile (fun c => c != '/' && c != '?')
    | _ => if r.method == "CONNECT" then [] else cs

def path (r : HttpRequest) : String :=
  let given := r.localTarget.takeWhile (· != '?')
  ofOctets ((UrlPart.path.unescape given).toOption.getD given)

def query (r : HttpRequest) : String :=
  match r.localTarget.dropWhile (· != '?') with
  | [_] => ""
  | cs => ofOctets cs

end HttpRequest

def cleanPath (path : String) : String :=
  let parts := (splitChar '/' path).foldl (fun acc p =>
    if p.isEmpty || p == "." then acc else if p == ".." then acc.drop 1 else p :: acc) []
  let clean := "/" ++ "/".intercalate parts.reverse
  if path.endsWith "/" && clean != "/" then clean ++ "/" else clean

namespace HttpResponse

def plain (status : Nat) (message : String) : HttpResponse := ⟨status, "text/plain; charset=utf-8", .text message⟩

def silent : HttpResponse := ⟨200, "", .text ""⟩

def notFound : HttpResponse := plain 404 "404 page not found\n"

def unanswerable : HttpResponse := ⟨400, "", .text ""⟩

def pageText (s : String) : String :=
  String.join (s.toList.map fun c => match c with
    | '&' => "&amp;"
    | '<' => "&lt;"
    | '>' => "&gt;"
    | '"' => "&#34;"
    | '\'' => "&#39;"
    | c => String.singleton c)

def movedTo (method path query : String) : HttpResponse :=
  if method == "GET" then
    let url := ofOctets (UrlPart.path.escape (octets path)) ++ query
    ⟨301, "text/html; charset=utf-8", .text ("<a href=\"" ++ pageText url ++ "\">Moved Permanently</a>.\n\n")⟩
  else ⟨301, if method == "HEAD" then "text/html; charset=utf-8" else "", .text ""⟩

end HttpResponse

inductive RpcFault where
  | unreadable
  | wrongVersion (request : Json)
  | badParams
  | server (message : String)
  deriving Repr, Inhabited

namespace RpcFault

def code : RpcFault → Int
  | unreadable => -32700
  | wrongVersion _ => -32600
  | badParams => -32600
  | server _ => -32000

/-- The error object of an answer. What is said about text that cannot be read is left open. -/
def json (f : RpcFault) : Json :=
  .obj (("code", .ofInt f.code) :: match f with
    | unreadable | badParams => []
    | wrongVersion request => [("message", .str ("jsonrpc must be " ++ rpcVersion)), ("data", request)]
    | server message => [("message", .str message), ("data", .null)])

end RpcFault

structure RpcCall where
  version : String := ""
  method : String := ""
  params : Option Json := none
  id : Option Json := none
  deriving Repr, Inhabited

namespace RpcCall

def optional (key : String) (fields : List (String × Json)) : Option Json :=
  match (Json.members key fields).getLast? with
  | some .null => none
  | j => j

/-- Reads a call. What is ill-typed keeps its place for the rest of the call to be known. -/
def ofJson : Json → Except RpcFault Unit × RpcCall
  | .null => (.ok (), {})
  | .obj fields =>
    let call : RpcCall :=
      { version := (Json.textField? "jsonrpc" fields).getD ""
        method := (Json.textField? "method" fields).getD ""
        params := optional "params" fields
        id := optional "id" fields }
    if (Json.textField? "jsonrpc" fields).isSome && (Json.textField? "method" fields).isSome then (.ok (), call)
    else (.error .unreadable, call)
  | _ => (.error .unreadable, {})

def json (c : RpcCall) : Json :=
  .obj [("jsonrpc", .str c.version), ("method", .str c.method), ("params", c.params.getD .null), ("id", c.id.getD .null)]

def symbolIn? : Json → Option String
  | .obj fields => Json.textField? "symbol" fields
  | _ => none

def symbol? (c : RpcCall) : Option String :=
  match c.params with
  | none => some ""
  | some (.arr []) => some ""
  | some (.arr (.null :: _)) => some ""
  | some (.arr (j :: _)) => symbolIn? j
  | some j => symbolIn? j

def route (c : RpcCall) : Except RpcFault Unit :=
  match splitChar '.' c.method with
  | [service, method] =>
    if service != rpcService then .error (.server ("rpc: can't find service " ++ quoted c.method))
    else if method != rpcMethod then .error (.server ("rpc: can't find method " ++ quoted c.method))
    else .ok ()
  | _ => .error (.server ("rpc: service/method request ill-formed: " ++ quoted c.method))

end RpcCall

/-- A demangling service: the token that callers need, none if it is empty, and what answers. -/
structure Service (σ : Type) where
  token : String
  bridge : Bridge σ

namespace Service

variable {σ : Type}

/-- Whether a caller may ask: the token is sent as it is or behind `Bearer`. -/
def admits (s : Service σ) (authorization : String) : Bool :=
  if s.token.isEmpty then true
  else if authorization.isEmpty then false
  else if authorization.startsWith "Bearer " then (authorization.drop 7).toString == s.token
  else authorization == s.token

def perform (s : Service σ) (authorization : String) (c : RpcCall) : StateM σ (Except RpcFault String) := do
  if c.version != rpcVersion then return .error (.wrongVersion c.json)
  match c.route with
  | .error fault => return .error fault
  | .ok () =>
    match c.symbol? with
    | none => return .error .badParams
    | some symbol =>
      if !s.admits authorization then return .error (.server "unauthorized")
      let reply ← s.bridge symbol
      match reply.fault with
      | some fault => return .error (.server ("failed to demangle " ++ quoted symbol ++ ": " ++ fault.message))
      | none => return .ok reply.name

/-- The answer to a call. A call without an id is not answered, unless it cannot be read. -/
def respond (id : Option Json) (outcome : Except RpcFault String) : HttpResponse :=
  let members := match outcome with
    | .ok name => ("result", Json.obj [("name", .str name)])
    | .error fault => ("error", fault.json)
  let answered := match outcome with
    | .error .unreadable => true
    | _ => id.isSome
  if answered then
    ⟨200, "application/json; charset=utf-8", .json (.obj [("jsonrpc", .str rpcVersion), members, ("id", id.getD .null)])⟩
  else .silent

def mediaType (r : HttpRequest) : String :=
  String.ofList ((r.header "Content-Type").toList.takeWhile (· != ';'))

def rpc (s : Service σ) (r : HttpRequest) : StateM σ HttpResponse := do
  if r.method != "POST" then
    return .plain 405 ("rpc: POST method required, received " ++ r.method)
  if lower (mediaType r) != "application/json" then
    return .plain 415 ("rpc: unrecognized Content-Type: " ++ mediaType r)
  match Json.first? r.body with
  | none => return respond none (.error .unreadable)
  | some (j, _) =>
    match RpcCall.ofJson j with
    | (.error fault, c) => return respond c.id (.error fault)
    | (.ok (), c) => return respond c.id (← s.perform (r.header "Authorization") c)

/-- Answers a request. A tunnel's path stands as it is; every other path is cleaned first. -/
def handle (s : Service σ) (r : HttpRequest) : StateM σ HttpResponse := do
  if r.target == "*" then return .unanswerable
  let clean := cleanPath r.path
  if r.method != "CONNECT" && clean != r.path then return .movedTo r.method clean r.query
  if r.path == "/rpc" then s.rpc r
  else if r.path == "/health" then return ⟨200, "application/json", .json (.obj [("status", .str "ok")])⟩
  else return .notFound

end Service
end CallFusion
