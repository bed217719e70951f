import CallFusion.Ir.Parser.Instruction
import CallFusion.Ir.Numbering
import CallFusion.Text.Number

/-!
Reading modules. `Module.parse` reads the text twice: the first reading takes every name on trust
and yields an outline, the second resolves names against the outline.
-/
namespace CallFusion.Ir

namespace Read

def linkages : List String :=
  ["private", "internal", "available_externally", "linkonce", "weak", "common", "appending", "linkonce_odr",
    "weak_odr", "external", "extern_weak"]

def preemptions : List String := ["dso_local", "dso_preemptable"]

def visibilities : List String := ["default", "hidden", "protected"]

def storages : List String := ["dllimport", "dllexport"]

def addressKinds : List String := ["unnamed_addr", "local_unnamed_addr"]

def threadLocal : Read String := do
  if ← acceptWord "thread_local" then
    if ← acceptMark '(' then
      match ← acceptAny ["localdynamic", "initialexec", "localexec"] with
      | some model =>
        expectMark ')'
        return "thread_local(" ++ model ++ ")"
      | none => unexpected
    return "thread_local"
  return ""

def spaceOpt : Read Nat := do if ← acceptWord "addrspace" then parenthesizedNatural else return 0

def comdatRef (own : String) : Read String := do
  let name ← if ← acceptMark '(' then
      match ← peek with
      | some (.comdatName s) => do
        advance
        expectMark ')'
        pure s
      | _ => unexpected
    else pure own
  if (← read).isComdat name then return name else fail (.undefinedName ("$" ++ name))

def globalClauses (g : Global) : Nat → Read Global
  | 0 => return g
  | n + 1 => do
    if ← acceptClause "section" then globalClauses { g with sectionName := ← stringLiteral } n
    else if ← acceptClause "partition" then globalClauses { g with partition := ← stringLiteral } n
    else if ← acceptClause "comdat" then globalClauses { g with comdat := some (← comdatRef g.name) } n
    else if ← acceptClause "align" then globalClauses { g with align := ← natural } n
    else return { g with attachments := ← attachments (← remaining), attrs := ← functionAttrs }

structure Placement where
  linkage : String
  preemption : String
  visibility : String
  storage : String

def placement : Read Placement :=
  return ⟨← acceptOpt linkages, ← acceptOpt preemptions, ← acceptOpt visibilities, ← acceptOpt storages⟩

def bareTargets : List String := ["bitcast", "getelementptr", "addrspacecast", "inttoptr"]

def aliasTarget : Read Constant := do
  match ← peek with
  | some (.word w) => if bareTargets.contains w then constant .unset else typedConstant
  | _ => typedConstant

def partitions (last : List UInt8) : Nat → Read (List UInt8)
  | 0 => return last
  | n + 1 => do if ← acceptClause "partition" then partitions (← stringLiteral) n else return last

def aliasTail (id : SymbolId) (symbol : Ident) (p : Placement) (tls addr : String) (resolved : Bool) : Read Alias := do
  let content ← type
  expectMark ','
  let target ← aliasTarget
  return { id := id, symbol := symbol, linkage := p.linkage, preemption := p.preemption,
           visibility := p.visibility, storage := p.storage, threadLocal := tls, unnamedAddr := addr,
           resolved := resolved, content := content, target := target,
           partition := ← partitions [] (← remaining) }

def global (id : SymbolId) (symbol : Ident) (p : Placement) (tls addr : String) : Read Global := do
  let space ← spaceOpt
  let externallySet ← acceptWord "externally_initialized"
  let immutable ← acceptWord "constant"
  unless immutable do expectWord "global"
  let content ← type
  let declared := p.linkage == "external" || p.linkage == "extern_weak"
  let init ← if declared then pure none else pure (some (← constant content))
  globalClauses
    { id := id, symbol := symbol, linkage := p.linkage, preemption := p.preemption, visibility := p.visibility,
      storage := p.storage, threadLocal := tls, unnamedAddr := addr, space := space,
      externallySet := externallySet, immutable := immutable, content := content, init := init } (← remaining)

def symbolEntity (m : Module) (id : SymbolId) (symbol : Ident) : Read Module := do
  let p ← placement
  let tls ← threadLocal
  let addr ← acceptOpt addressKinds
  if ← acceptWord "alias" then return { m with aliases := m.aliases ++ [← aliasTail id symbol p tls addr false] }
  if ← acceptWord "ifunc" then return { m with aliases := m.aliases ++ [← aliasTail id symbol p tls addr true] }
  return { m with globals := m.globals ++ [← global id symbol p tls addr] }

def param : Read Param := do
  let t ← type
  let attrs ← paramAttrs
  let ident ← match ← peek with
    | some (.localName i) => do
      advance
      pure i
    | _ => pure (.number 0)
  return ⟨← freshLocal, ident, t, attrs⟩

def params : Nat → Read (List Param × Bool)
  | 0 => unexpected
  | n + 1 => do
    if ← acceptMark ')' then return ([], false)
    if ← accept .ellipsis then
      expectMark ')'
      return ([], true)
    let p ← param
    if ← acceptMark ',' then
      if (← peek) == some (.mark ')') then unexpected
      let (ps, variadic) ← params n
      return (p :: ps, variadic)
    expectMark ')'
    return ([p], false)

def functionClauses (f : Function) : Nat → Read Function
  | 0 => return f
  | n + 1 => do
    if let some a ← functionAttr? false then functionClauses { f with attrs := f.attrs ++ [a] } n
    else if ← acceptWord "section" then functionClauses { f with sectionName := ← stringLiteral } n
    else if ← acceptWord "partition" then functionClauses { f with partition := ← stringLiteral } n
    else if ← acceptWord "comdat" then functionClauses { f with comdat := some (← comdatRef f.name) } n
    else if ← acceptWord "align" then functionClauses { f with align := ← natural } n
    else if ← acceptWord "gc" then functionClauses { f with collector := ← stringLiteral } n
    else if ← acceptWord "prefix" then functionClauses { f with prefixData := some (← typedConstant) } n
    else if ← acceptWord "prologue" then functionClauses { f with prologueData := some (← typedConstant) } n
    else if ← acceptWord "personality" then functionClauses { f with personality := some (← typedConstant) } n
    else return f

/-- A symbol's identifier; a symbol without a name gets the number due, whatever the text says. -/
def numbered (due : Nat) : Ident → Ident
  | .named s => .named s
  | .number _ => .number due

def functionHeader (id : SymbolId) (due : Nat) : Read Function := do
  modify fun c => { c with nextLocal := 0, mention := Value.firstMention }
  let p ← placement
  let cc ← convention
  let results ← resultAttrs
  let result ← type
  let symbol := numbered due (← globalName)
  expectMark '('
  let (ps, variadic) ← params (← remaining)
  let addr ← acceptOpt addressKinds
  let space ← spaceOpt
  functionClauses
    { id := id, symbol := symbol, result := result, params := ps, variadic := variadic, linkage := p.linkage,
      preemption := p.preemption, visibility := p.visibility, storage := p.storage, convention := cc,
      resultAttrs := results, unnamedAddr := addr, space := space } (← remaining)

def resultName : Read (Option Ident) := do
  match ← peek, ← peek2 with
  | some (.localName i), some (.mark '=') =>
    advance
    advance
    return some i
  | _, _ => return none

/-- Instructions up to and with the terminator. Only what leaves a result can be named. -/
def blockBody : Nat → Read (List Instruction × Terminal)
  | 0 => unexpected
  | n + 1 => do
    let name ← resultName
    let ident := name.getD (.number 0)
    match ← peek with
    | some (.word w) =>
      advance
      let id ← freshLocal
      if terminatorWords.contains w then
        let (op, t) ← terminator w
        ensure (name.isNone || op.hasResult) "name" ()
        return ([], ⟨id, ident, t, op, ← attachments (← remaining)⟩)
      let (op, t) ← operation w
      ensure (name.isNone || op.hasResult) "name" ()
      let inst : Instruction := ⟨id, ident, t, op, ← attachments (← remaining)⟩
      let (insts, term) ← blockBody n
      return (inst :: insts, term)
    | _ => unexpected

def positions : Read (List Nat) := do
  expectMark ','
  expectMark '\x7b'
  let ns ← items natural (← remaining)
  expectMark '\x7d'
  return ns

def useOrder : Read UseOrder := do return ⟨← typedValue, ← positions⟩

def useOrders : Nat → Read (List UseOrder)
  | 0 => unexpected
  | n + 1 => do
    if ← acceptMark '\x7d' then return []
    expectWord "uselistorder"
    return (← useOrder) :: (← useOrders n)

/-- Blocks and orders of uses up to the closing brace; only a label or an instruction opens a block. -/
def blocks : Nat → Read (List Block × List UseOrder)
  | 0 => unexpected
  | n + 1 => do
    let ident ← match ← peek with
      | some (.label i) => do
        advance
        pure i
      | some (.field key) => do
        if unlabellingKeys.contains key then unexpected
        advance
        pure (.named key)
      | _ => pure (.number 0)
    let id ← freshLocal
    let (insts, term) ← blockBody (← remaining)
    let b : Block := ⟨id, ident, insts, term⟩
    match ← peek with
    | some (.mark '\x7d') | some (.word "uselistorder") => return ([b], ← useOrders (← remaining))
    | _ =>
      let (bs, orders) ← blocks n
      return (b :: bs, orders)

def localScope (outline : Option Function) (s : Scope) : Scope :=
  match outline with
  | none => s
  | some f =>
    let entries : List (Ident × Value) :=
      f.params.map (fun p => (p.ident, p.value)) ++ f.blocks.flatMap fun b =>
        (b.ident, .block b.id) ::
          ((b.insts.filter (·.isNumbered)).map (fun i => (i.ident, i.value)) ++
            (if b.term.isNumbered then [(b.term.ident, b.term.value)] else []))
    { s with value? := fun i => (entries.find? (·.1 == i)).map (·.2) }

def declaration (id : SymbolId) (due : Nat) : Read Function := do
  let attached ← bareAttachments (← remaining)
  let f ← functionHeader id due
  return { f with attachments := attached }

def definition (outline : Option Module) (id : SymbolId) (due : Nat) : Read Function := do
  let f ← functionHeader id due
  let known := outline.bind fun m => m.functions.find? (·.symbol == f.symbol)
  let attached ← bareAttachments (← remaining)
  expectMark '\x7b'
  let (bs, orders) ← withReader (localScope known) (do blocks (← remaining))
  return { f with attachments := attached, blocks := bs, useOrders := orders }

def appendNamed (defs : List NamedMeta) (d : NamedMeta) : List NamedMeta :=
  if defs.any (·.name == d.name) then
    defs.map fun e => if e.name == d.name then { e with nodes := e.nodes ++ d.nodes } else e
  else defs ++ [d]

/-- Adds a group of attributes; several definitions of a number are one. A group has an attribute once. -/
def appendGroup (groups : List AttrGroup) (g : AttrGroup) : List AttrGroup :=
  if groups.any (·.id == g.id) then
    groups.map fun e => if e.id == g.id then { e with attrs := (e.attrs ++ g.attrs).eraseDups } else e
  else groups ++ [{ g with attrs := g.attrs.eraseDups }]

def namedNode : Read Meta := do
  match ← peek with
  | some (.metaRef _) | some (.nodeKind "DIExpression") => node false
  | _ => unexpected

def blockOrder : Read BlockUseOrder := do
  let (id, _) ← symbolNamed (← globalName)
  expectMark ','
  let block ← localName
  match (← read).blockOf? id block with
  | some b => return ⟨id, b, ← positions⟩
  | none => fail (.undefinedName block.text)

def unnamedCount (m : Module) : Nat := (m.symbols.filter (·.2.isUnnamed)).length

def entity (outline : Option Module) (m : Module) : Read Module := do
  let id : SymbolId := ⟨m.symbols.length + 1⟩
  let due := unnamedCount m
  match ← peek with
  | some (.word "source_filename") =>
    advance
    expectMark '='
    return { m with sourceName := ← stringLiteral }
  | some (.word "target") =>
    advance
    if ← acceptWord "datalayout" then
      expectMark '='
      return { m with layout := ← stringLiteral }
    expectWord "triple"
    expectMark '='
    return { m with triple := ← stringLiteral }
  | some (.word "module") =>
    advance
    expectWord "asm"
    return { m with asms := m.asms ++ [← stringLiteral] }
  | some (.localName _) =>
    advance
    expectMark '='
    expectWord "type"
    if ← acceptWord "opaque" then return m
    let _ ← type
    return m
  | some (.comdatName s) =>
    advance
    expectMark '='
    expectWord "comdat"
    match ← acceptAny ["any", "exactmatch", "largest", "nodeduplicate", "samesize"] with
    | some kind => return { m with comdats := m.comdats ++ [⟨s, kind⟩] }
    | none => unexpected
  | some (.globalName i) =>
    advance
    expectMark '='
    symbolEntity m id (numbered due i)
  | some (.word "declare") =>
    advance
    return { m with functions := m.functions ++ [← declaration id due] }
  | some (.word "define") =>
    advance
    return { m with functions := m.functions ++ [← definition outline id due] }
  | some (.word "attributes") =>
    advance
    match ← peek with
    | some (.attrGroup n) =>
      advance
      expectMark '='
      expectMark '\x7b'
      let attrs ← many (functionAttr? true) (← remaining)
      expectMark '\x7d'
      return { m with attrGroups := appendGroup m.attrGroups ⟨n, attrs⟩ }
    | _ => unexpected
  | some (.metaName name) =>
    advance
    expectMark '='
    expectMark '!'
    expectMark '\x7b'
    return { m with namedMeta := appendNamed m.namedMeta ⟨name, ← itemsUntil '\x7d' namedNode (← remaining)⟩ }
  | some (.metaRef id) =>
    advance
    expectMark '='
    let distinct ← acceptWord "distinct"
    match ← peek with
    | some (.mark '!') | some (.nodeKind _) =>
      return { m with metaDefs := m.metaDefs ++ [⟨id, distinct, ← node distinct⟩] }
    | _ => unexpected
  | some (.word "uselistorder") =>
    advance
    return { m with useOrders := m.useOrders ++ [← useOrder] }
  | some (.word "uselistorder_bb") =>
    advance
    return { m with blockOrders := m.blockOrders ++ [← blockOrder] }
  | _ => unexpected

def entities (outline : Option Module) (m : Module) : Nat → Read Module
  | 0 => return m
  | n + 1 => do
    if (← get).tokens.isEmpty then return m
    entities outline (← entity outline m) n

end Read

def blankScope : Scope where
  type? := fun n => some (.named n)
  symbol? := fun _ => none
  isFunction := fun _ => false
  isVariable := fun _ => false
  value? := fun _ => none
  blockOf? := fun _ _ => none
  node? := fun _ => none
  isComdat := fun _ => false
  table := []
  trusting := true

def addType (table : TypeTable) (d : TypeDef) : Except SyntaxError TypeTable :=
  match table.find? d.name with
  | none => .ok (table ++ [d])
  | some .opaqueStruct => .ok (table.without d.name ++ [d])
  | some (.is _) => .error (.duplicateName d.name)

/-- The definitions of types, found by scanning for them; names in them are not yet looked up. -/
def typeDefinitions (table : TypeTable) : List Token → Except SyntaxError TypeTable
  | [] => return table
  | .localName i :: .mark '=' :: .word "type" :: rest => do
    let body ← match rest with
      | .word "opaque" :: _ => pure TypeBody.opaqueStruct
      | _ => do
        let (t, _) ← (Read.type.run blankScope).run ⟨rest, 0, 0⟩
        pure (TypeBody.is t)
    typeDefinitions (← addType table { name := i.shown, body := body }) rest
  | _ :: rest => typeDefinitions table rest

def groundName? (table : TypeTable) : Nat → String → Option String
  | 0, _ => none
  | n + 1, name =>
    match table.find? name with
    | some (.is (.named next)) => groundName? table n next
    | some _ => some name
    | none => none

def secondName (table : TypeTable) (ground : String) : Ty :=
  match table.find? ground with
  | some (.is t) => .synonym ground t.outline
  | _ => .synonym ground (.struct false [])

/-- What a type name stands for: a structure keeps its name, any other type comes with its body.
`fuel` bounds how many names are looked through. -/
def namedTypeIn (table : TypeTable) : Nat → String → Ty
  | 0, name => .named name
  | n + 1, name =>
    match table.find? name with
    | some (.is (.struct _ _)) => .named name
    | some (.is (.named _)) => secondName table ((groundName? table (table.length + 1) name).getD name)
    | some (.is t) => .synonym name (t.expand (namedTypeIn table n))
    | _ => .named name

def expandTable (table : TypeTable) : TypeTable :=
  table.map fun d => match d.body with
    | .is (.named _) =>
      let ground := (groundName? table (table.length + 1) d.name).getD d.name
      { d with body := .is (secondName table ground).unalias, shown := ground }
    | .is t => { d with body := .is (t.expand (namedTypeIn table table.length)) }
    | .opaqueStruct => d

def typeScope (table : TypeTable) (name : String) : Option Ty :=
  if (table.find? name).isSome then some (namedTypeIn table (table.length + 1) name) else none

/-- A scope that takes names of symbols and locals on trust. -/
def trustingScope (table : TypeTable) : Scope where
  type? := typeScope table
  symbol? := fun _ => some (⟨0⟩, .void)
  isFunction := fun _ => true
  isVariable := fun _ => false
  value? := fun _ => some (.local 0 .void)
  blockOf? := fun _ _ => some 0
  node? := fun _ => none
  isComdat := fun _ => true
  table := expandTable table
  trusting := true

def Module.symbolTypes (m : Module) : List (Ident × SymbolId × Ty) :=
  m.functions.map (fun f => (f.symbol, f.id, .pointer f.signature f.space)) ++
    m.globals.map (fun g => (g.symbol, g.id, .pointer g.content g.space)) ++
    m.aliases.map fun a => (a.symbol, a.id, a.type)

def outlineScope (table : TypeTable) (outline : Module) : Scope :=
  let symbols := outline.symbolTypes
  { type? := typeScope table
    symbol? := fun i => (symbols.find? (·.1 == i)).map (·.2)
    isFunction := fun id => (outline.function? id).isSome
    isVariable := fun id => (outline.global? id).isSome
    value? := fun _ => none
    blockOf? := fun id i => (outline.function? id).bind fun f => (f.blocks.find? (·.ident == i)).map (·.id)
    node? := fun id => (outline.metaDefs.find? (·.id == id)).map (·.body)
    isComdat := fun name => outline.comdats.any (·.name == name)
    table := expandTable table
    trusting := false }

def duplicate? {α : Type} [BEq α] : List α → Option α
  | [] => none
  | x :: xs => if xs.contains x then some x else duplicate? xs

/-- Numbers a function's locals, and rejects names that two of them have. -/
def checkNumbers (f : Function) : Except SyntaxError Function := do
  let numbered ← f.assignNumbers.mapError .misnumbered
  match duplicate? numbered.numberedIdents with
  | some i => throw (.duplicateName i.text)
  | none => return numbered

mutual
def Meta.refs : Meta → List Nat
  | .ref id => [id]
  | .tuple fields => Meta.refsAll fields
  | .node _ fields => Meta.refsFields fields
  | .operands fields => Meta.refsAll fields
  | _ => []

def Meta.refsAll : List Meta → List Nat
  | [] => []
  | m :: ms => Meta.refs m ++ Meta.refsAll ms

def Meta.refsFields : List (String × Meta) → List Nat
  | [] => []
  | (_, m) :: ms => Meta.refs m ++ Meta.refsFields ms
end

def Argument.metaRefs : Argument Value → List Nat
  | .debugNode m => m.refs
  | _ => []

def Instruction.metaRefs (i : Instruction) : List Nat :=
  i.attachments.flatMap (·.node.refs) ++
    match i.op with
    | .call _ c => c.args.flatMap Argument.metaRefs
    | .catchPad _ args | .cleanupPad _ args => args.flatMap Argument.metaRefs
    | _ => []

def Terminal.metaRefs (t : Terminal) : List Nat :=
  t.attachments.flatMap (·.node.refs) ++
    match t.op with
    | .invoke c _ _ => c.args.flatMap Argument.metaRefs
    | .callBr c _ _ => c.args.flatMap Argument.metaRefs
    | _ => []

def Module.metaRefs (m : Module) : List Nat :=
  m.metaDefs.flatMap (·.body.refs) ++ m.namedMeta.flatMap (·.nodes.flatMap Meta.refs) ++
    m.globals.flatMap (·.attachments.flatMap (·.node.refs)) ++
    m.functions.flatMap fun f =>
      f.attachments.flatMap (·.node.refs) ++
        f.blocks.flatMap fun b => b.insts.flatMap (·.metaRefs) ++ b.term.metaRefs

def checkNames (m : Module) : Except SyntaxError Unit := do
  if let some i := duplicate? (m.symbols.map (·.2)) then throw (.duplicateName i.symbolText)
  if let some s := duplicate? (m.comdats.map (·.name)) then throw (.duplicateName s)
  if let some n := duplicate? (m.metaDefs.map (·.id)) then throw (.duplicateName (toString n))
  let defined := m.metaDefs.map (·.id)
  if let some n := m.metaRefs.find? fun n => !defined.contains n then throw (.undefinedName ("!" ++ toString n))

def Module.parse (src : String) : Except SyntaxError Module := do
  let tokens := Token.scan src
  let table ← typeDefinitions [] tokens
  if let some name := (table.map (·.name)).find? fun n => (groundName? table (table.length + 1) n).isNone then
    throw (.invalid name)
  let cursor : Cursor := ⟨tokens, Value.firstMention, 0⟩
  let fuel := tokens.length + 1
  let (outline, _) ← ((Read.entities none {} fuel).run (trustingScope table)).run cursor
  let functions ← outline.functions.mapM checkNumbers
  let outline := { outline with functions := functions }
  checkNames outline
  let (m, _) ← ((Read.entities (some outline) {} fuel).run (outlineScope table outline)).run cursor
  let functions ← m.functions.mapM checkNumbers
  return { m with
    functions := functions
    types := (expandTable table).mergeSort fun a b => Text.naturalLe a.name b.name
    comdats := m.comdats.mergeSort fun a b => Text.naturalLe a.name b.name
    attrGroups := m.attrGroups.mergeSort fun a b => a.id ≤ b.id
    metaDefs := m.metaDefs.mergeSort fun a b => a.id ≤ b.id }

end CallFusion.Ir
