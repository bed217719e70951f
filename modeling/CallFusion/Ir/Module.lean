import CallFusion.Ir.Value

/-!
Blocks, functions, globals and modules. Every parameter, block, instruction and terminator of a
function has a number of its own, which is what operands refer to; printed names and numbers are
kept beside it.
-/
namespace CallFusion.Ir

structure Instruction where
  id : LocalId
  ident : Ident
  type : Ty
  op : Operation Value
  attachments : List Attachment := []
  deriving Repr, Inhabited

structure Terminal where
  id : LocalId
  ident : Ident
  type : Ty
  op : Terminator Value
  attachments : List Attachment := []
  deriving Repr, Inhabited

structure Block where
  id : LocalId
  ident : Ident
  insts : List Instruction
  term : Terminal
  deriving Repr, Inhabited

structure Param where
  id : LocalId
  ident : Ident
  type : Ty
  attrs : List String := []
  deriving Repr, Inhabited

/-- An order in which the uses of a value are to be listed. -/
structure UseOrder where
  value : Value
  positions : List Nat
  deriving Repr, Inhabited

structure BlockUseOrder where
  function : SymbolId
  block : LocalId
  positions : List Nat
  deriving Repr, Inhabited

structure Function where
  id : SymbolId
  symbol : Ident
  result : Ty
  params : List Param
  variadic : Bool := false
  linkage : String := ""
  preemption : String := ""
  visibility : String := ""
  storage : String := ""
  convention : String := ""
  resultAttrs : List String := []
  unnamedAddr : String := ""
  space : Nat := 0
  attrs : List String := []
  sectionName : List UInt8 := []
  partition : List UInt8 := []
  comdat : Option String := none
  align : Nat := 0
  collector : List UInt8 := []
  prefixData : Option Constant := none
  prologueData : Option Constant := none
  personality : Option Constant := none
  attachments : List Attachment := []
  blocks : List Block := []
  useOrders : List UseOrder := []
  /-- Locals that were dropped, for the orders of uses that still show their names. -/
  dropped : List (LocalId × Ident) := []
  deriving Repr, Inhabited

structure Global where
  id : SymbolId
  symbol : Ident
  linkage : String := ""
  preemption : String := ""
  visibility : String := ""
  storage : String := ""
  threadLocal : String := ""
  unnamedAddr : String := ""
  space : Nat := 0
  externallySet : Bool := false
  immutable : Bool := false
  content : Ty
  init : Option Constant := none
  sectionName : List UInt8 := []
  partition : List UInt8 := []
  comdat : Option String := none
  align : Nat := 0
  attachments : List Attachment := []
  attrs : List String := []
  deriving Repr, Inhabited

/-- Another name for a symbol, or a symbol that a function resolves when the program is loaded. -/
structure Alias where
  id : SymbolId
  symbol : Ident
  linkage : String := ""
  preemption : String := ""
  visibility : String := ""
  storage : String := ""
  threadLocal : String := ""
  unnamedAddr : String := ""
  resolved : Bool := false
  content : Ty
  target : Constant
  partition : List UInt8 := []
  deriving Repr, Inhabited

structure AttrGroup where
  id : Nat
  attrs : List String
  deriving Repr, Inhabited

structure NamedMeta where
  name : String
  nodes : List Meta
  deriving Repr, Inhabited

structure Comdat where
  name : String
  kind : String
  deriving Repr, Inhabited

structure Module where
  sourceName : List UInt8 := []
  layout : List UInt8 := []
  triple : List UInt8 := []
  asms : List (List UInt8) := []
  types : TypeTable := []
  comdats : List Comdat := []
  globals : List Global := []
  aliases : List Alias := []
  functions : List Function := []
  /-- Functions that were dropped, for the places that still show their names and those of their blocks. -/
  dropped : List Function := []
  attrGroups : List AttrGroup := []
  namedMeta : List NamedMeta := []
  metaDefs : List MetaDef := []
  useOrders : List UseOrder := []
  blockOrders : List BlockUseOrder := []
  deriving Repr, Inhabited

namespace Instruction

def value (i : Instruction) : Value := .local i.id i.type

def call? (i : Instruction) : Option (Call Value) :=
  match i.op with
  | .call _ c => some c
  | _ => none

def mapOperands (f : Bool → Value → Value) (i : Instruction) : Instruction :=
  { i with op := i.op.mapOperands f }

end Instruction

namespace Terminal

def value (t : Terminal) : Value := .local t.id t.type

def mapOperands (f : Bool → Value → Value) (t : Terminal) : Terminal :=
  { t with op := t.op.mapOperands f }

end Terminal

namespace Block

def operands (b : Block) : List (Operand Value) :=
  b.insts.flatMap (·.op.operands) ++ b.term.op.operands

def mapOperands (f : Bool → Value → Value) (b : Block) : Block :=
  { b with insts := b.insts.map (·.mapOperands f), term := b.term.mapOperands f }

def successors (b : Block) : List LocalId := b.term.op.targets.filterMap Value.block?

def indexOf? (b : Block) (id : LocalId) : Option Nat := b.insts.findIdx? (·.id == id)

def insertAt (b : Block) (i : Nat) (new : List Instruction) : Block :=
  { b with insts := b.insts.take i ++ new ++ b.insts.drop i }

end Block

namespace Param

def value (p : Param) : Value := .local p.id p.type

end Param

namespace Function

def name (f : Function) : String := f.symbol.shown

def isDeclaration (f : Function) : Bool := f.blocks.isEmpty

def signature (f : Function) : Ty := .func f.result (f.params.map (·.type)) f.variadic

def value (f : Function) : Value := .symbol f.id (.pointer f.signature f.space)

def operands (f : Function) : List (Operand Value) := f.blocks.flatMap (·.operands)

def mapOperands (g : Bool → Value → Value) (f : Function) : Function :=
  { f with blocks := f.blocks.map (·.mapOperands g) }

def block? (f : Function) (id : LocalId) : Option Block := f.blocks.find? (·.id == id)

def updateBlock (f : Function) (id : LocalId) (g : Block → Block) : Function :=
  { f with blocks := f.blocks.map fun b => if b.id == id then g b else b }

def instructions (f : Function) : List Instruction := f.blocks.flatMap (·.insts)

def instruction? (f : Function) (id : LocalId) : Option Instruction :=
  f.instructions.find? (·.id == id)

def localIds (f : Function) : List LocalId :=
  f.params.map (·.id) ++ f.blocks.flatMap fun b => b.id :: (b.insts.map (·.id) ++ [b.term.id])

def usedIds (f : Function) : List LocalId :=
  f.operands.filterMap fun o => o.value.local? <|> o.value.block?

/-- A number that no part of the function has or uses, or had. -/
def freshId (f : Function) : LocalId := ((f.localIds ++ f.usedIds ++ f.dropped.map (·.1)).foldl max 0) + 1

def freshMention (f : Function) : Nat :=
  (f.operands.map (·.value.mention)).foldl max Value.firstMention + 1

def idents (f : Function) : List (LocalId × Ident) :=
  f.params.map (fun p => (p.id, p.ident)) ++
    (f.blocks.flatMap fun b =>
      (b.id, b.ident) :: (b.insts.map (fun i => (i.id, i.ident)) ++ [(b.term.id, b.term.ident)])) ++
    f.dropped

def identOf (f : Function) (id : LocalId) : Ident :=
  ((f.idents.find? (·.1 == id)).map (·.2)).getD (.number 0)

end Function

namespace Global

def name (g : Global) : String := g.symbol.shown

def value (g : Global) : Value := .symbol g.id (.pointer g.content g.space)

end Global

namespace Alias

def name (a : Alias) : String := a.symbol.shown

/-- The type of the alias as an operand: it is in the address space of its target. -/
def type (a : Alias) : Ty :=
  match a.target.type.unalias with
  | .pointer _ space => .pointer a.content space
  | _ => .pointer a.content 0

end Alias

namespace Module

def function? (m : Module) (id : SymbolId) : Option Function := m.functions.find? (·.id == id)

def global? (m : Module) (id : SymbolId) : Option Global := m.globals.find? (·.id == id)

def findFunction (m : Module) (name : String) : Option Function :=
  m.functions.find? (·.name == name)

def findGlobal (m : Module) (name : String) : Option Global := m.globals.find? (·.name == name)

def symbolNamed? (m : Module) (name : String) : Option Value :=
  ((m.findFunction name).map (·.value)) <|> ((m.findGlobal name).map (·.value))

def setFunction (m : Module) (f : Function) : Module :=
  { m with functions := m.functions.map fun g => if g.id == f.id then f else g }

def addFunction (m : Module) (f : Function) : Module := { m with functions := m.functions ++ [f] }

/-- What the module's symbols are called, dropped functions last. -/
def symbols (m : Module) : List (SymbolId × Ident) :=
  m.functions.map (fun f => (f.id, f.symbol)) ++ m.globals.map (fun g => (g.id, g.symbol)) ++
    m.aliases.map (fun a => (a.id, a.symbol)) ++ m.dropped.map fun f => (f.id, f.symbol)

def symbolIdent (m : Module) (id : SymbolId) : Ident :=
  ((m.symbols.find? (·.1 == id)).map (·.2)).getD (.number 0)

def freshSymbol (m : Module) : SymbolId := ⟨((m.symbols.map (·.1.index)).foldl max 0) + 1⟩

def dropFunction (m : Module) (id : SymbolId) : Module :=
  { m with
    functions := m.functions.filter (·.id != id)
    dropped := m.dropped ++ (m.function? id).toList }

end Module
end CallFusion.Ir
