import CallFusion.Store.Pragma
import CallFusion.Text.Escape
import CallFusion.Text.Quoted
import CallFusion.Text.Trim

/-!
Addresses of stores. An address is a path, or the address of a file marked by `file:`, with options behind
a question mark. The tool itself adds one option, so the value of the last option that an address spells
runs on into it.
-/
namespace CallFusion

open Text

inductive StorePlace where
  | file (path : String)
  | memory
  deriving DecidableEq, Repr, Inhabited

inductive StoreAccess where
  | create
  | existing
  | readOnly
  deriving DecidableEq, Repr, Inhabited

/-- An address as it was understood. A store may open and still be refused for an option that it is
given then. -/
structure StoreAddress where
  place : StorePlace
  access : StoreAccess := .create
  refusal : Option String := none
  deriving DecidableEq, Repr, Inhabited

namespace StoreAddress

/-- The option that the tool adds: changes go to a log first. -/
def logOption : String := "?_journal_mode=WAL"

abbrev Options := List (String × String)

def Options.values (o : Options) (name : String) : List String := (o.filter (·.1 == name)).map (·.2)

def decoded : List Char → Except (List Char) (List Char)
  | '%' :: a :: b :: cs =>
    match hexChar? a, hexChar? b with
    | some high, some low => return Char.ofNat (high * 16 + low) :: (← decoded cs)
    | _, _ => .error ['%', a, b]
  | '%' :: cs => .error ('%' :: cs)
  | '+' :: cs => return ' ' :: (← decoded cs)
  | c :: cs => return c :: (← decoded cs)
  | [] => .ok []

def cut (mark : Char) (cs : List Char) : List Char × List Char :=
  (cs.takeWhile (· != mark), (cs.dropWhile (· != mark)).drop 1)

def option (piece : List Char) : Except (List Char) (String × String) := do
  let (name, value) := cut '=' piece
  return (ofOctets (← decoded name), ofOctets (← decoded value))

def pieces (mark : Char) (cs : List Char) : List (List Char) := (splitChar mark (String.ofList cs)).map String.toList

def options (query : List Char) : Except String Options :=
  let found := (pieces '&' query).filter (!·.isEmpty)
  if found.any (·.contains ';') then .error "invalid semicolon separator in query"
  else (found.mapM option).mapError fun escape => "invalid URL escape " ++ quoted (ofOctets escape)

def layers : List String := ["unix", "unix-none", "unix-dotfile", "unix-excl", "memdb"]

def layer? (o : Options) : Except String (Option String) :=
  let names := (o.values "vfs").filter (!·.isEmpty)
  match names with
  | [] => .ok none
  | name :: rest =>
    if rest.all (· == name) then .ok (some name)
    else .error ("conflicting vfs query parameters: [" ++ " ".intercalate (o.values "vfs") ++ "]")

def notUnderstood : String := "SQL logic error: out of memory (1)"
def notAllowed : String := "access permission denied: out of memory (3)"

def plainPart : List Char → List Char
  | '%' :: a :: b :: cs =>
    match hexChar? a, hexChar? b with
    | some high, some low => if high = 0 && low = 0 then [] else Char.ofNat (high * 16 + low) :: plainPart cs
    | _, _ => '%' :: plainPart (a :: b :: cs)
  | c :: cs => c :: plainPart cs
  | [] => []

structure Opening where
  access : StoreAccess := .create
  inMemory : Bool := false
  layer : Option String := none

/-- The kinds of access by name; a later option may not widen an earlier one. -/
def Opening.allows (o : Opening) (a : StoreAccess) : Bool :=
  o.inMemory || match a with
    | .readOnly => true
    | .existing => o.access != .readOnly
    | .create => o.access == .create

def Opening.withAccess (o : Opening) (a : StoreAccess) : Except String Opening :=
  if o.allows a then .ok { o with access := a, inMemory := false } else .error notAllowed

def Opening.take (o : Opening) (name value : String) : Except String Opening :=
  match name, value with
  | "vfs", layer => .ok { o with layer := some layer }
  | "cache", "shared" | "cache", "private" => .ok o
  | "cache", _ => .error notUnderstood
  | "mode", "ro" => o.withAccess .readOnly
  | "mode", "rw" => o.withAccess .existing
  | "mode", "rwc" => o.withAccess .create
  | "mode", "memory" => .ok { o with inMemory := true }
  | "mode", _ => .error notUnderstood
  | _, _ => .ok o

def withoutHost : List Char → Except String (List Char)
  | '/' :: '/' :: cs =>
    let host := cs.takeWhile (· != '/')
    if host.isEmpty || host == "localhost".toList then .ok (cs.dropWhile (· != '/')) else .error notUnderstood
  | cs => .ok cs

def fileParts (cs : List Char) : Except String (List Char × Options) := do
  let (path, query) := cut '?' (cut '#' (← withoutHost cs)).1
  let named := (pieces '&' query).filterMap fun piece =>
    let (name, value) := cut '=' piece
    if name.isEmpty then none else some (ofOctets (plainPart name), ofOctets (plainPart value))
  return (plainPart path, named)

/-- Statements are given in alphabetical order, but how long to wait for others comes first. -/
def settingRank (statement : String) : String :=
  let statement := lower (trim statement)
  if statement.startsWith "busy_timeout" then "" else statement

def settingsRefusal? (o : Options) : Option String :=
  let statements := (o.values "_pragma").mergeSort fun a b => settingRank a ≤ settingRank b
  match statements.mapM Pragma.settings with
  | .error complaint => some ("SQL logic error: " ++ complaint ++ " (1)")
  | .ok _ => none

def allowWrites (o : Options) : Bool :=
  let statements := (o.values "_pragma").mergeSort fun a b => settingRank a ≤ settingRank b
  match statements.mapM Pragma.settings with
  | .error _ => true
  | .ok settings => Pragma.allowWrites settings.flatten

def notWritable : String := "attempt to write a readonly database (8)"

def refusal? (o : Options) : Option String :=
  let settings := settingsRefusal? o
  let format := (o.lookup "_time_format").filter fun v => !v.isEmpty && v != "sqlite"
  let lock := (o.lookup "_txlock").filter fun v => !(["", "deferred", "immediate", "exclusive"] : List String).contains (lower v)
  settings <|> (format.map ("unknown _time_format " ++ quoted ·)) <|> (lock.map ("unknown _txlock " ++ quoted ·)) <|>
    (if allowWrites o then none else some notWritable)

/-- Reads an address. A question mark at its front starts no options. -/
def read (address : String) : Except String StoreAddress := do
  let whole := octets (address ++ logOption)
  let (path, query) := if whole.head? == some '?' then (whole, []) else cut '?' whole
  let given ← options query
  let layer ← layer? given
  let start : Opening := { layer := layer }
  let (path, opening) ←
    if "file:".toList.isPrefixOf whole then do
      let (path, named) ← fileParts (whole.drop 5)
      pure (path, ← named.foldlM (fun o (name, value) => o.take name value) start)
    else pure (path, start)
  if opening.layer.any (!layers.contains ·) then .error notUnderstood
  let path := ofOctets (path.takeWhile (· != '\x00'))
  let inMemory := opening.inMemory || path.isEmpty || path == ":memory:" || opening.layer == some "memdb"
  return { place := if inMemory then .memory else .file path, access := opening.access, refusal := refusal? given }

end StoreAddress
end CallFusion
