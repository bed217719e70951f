import CallFusion.Ir.Module
import CallFusion.Text.Binary
import CallFusion.Text.Number

/-!
Printing of modules. Sections are divided by a blank line, instructions are indented by a tab, and
the clauses of longer instructions go on lines of their own.
-/
namespace CallFusion.Ir

open CallFusion.Text

structure Names where
  symbol : SymbolId → Ident
  block : SymbolId → LocalId → Ident
  localIdent : LocalId → Ident

def Module.names (m : Module) (f : Option Function) : Names where
  symbol := m.symbolIdent
  block := fun id b =>
    (((m.functions ++ m.dropped).find? (·.id == id)).map (·.identOf b)).getD (.number 0)
  localIdent := match f with
    | some f => let table := f.idents; fun id => ((table.find? (·.1 == id)).map (·.2)).getD (.number 0)
    | none => fun _ => .number 0

def commaSep (parts : List String) : String := ", ".intercalate parts

def spaced (parts : List String) : String := String.join (parts.map fun p => " " ++ p)

def opt (part : String) : String := if part.isEmpty then "" else " " ++ part

def spacePart (space : Nat) : String := Ty.spaceText space

def alignPart (align : Nat) : String := if align = 0 then "" else ", align " ++ toString align

structure DigitVariety where
  used : Nat
  room : Nat
  deriving DecidableEq, Repr, Inhabited

namespace DigitVariety

def ofNat (base n : Nat) : DigitVariety :=
  let ds := Nat.toDigits base n
  { used := ds.eraseDups.length, room := min ds.length base }

def share (v : DigitVariety) : Binary := .ofRatio v.used v.room

/-- Whether few digits occur: the share of those that do, taken as often as there are such digits, stays below
one and a half. -/
def isLow (v : DigitVariety) : Bool := 2 * Nat.pow v.used 2 < 3 * v.room

def isAbove (more less : DigitVariety) : Bool := (less.share.plus (.ofRatio 1 5)).atMost more.share

end DigitVariety

/-- Whether a number reads better in hexadecimal: from `0x1000` on, when few hexadecimal digits occur in it,
and a smaller share of them than of the decimal digits. -/
def readsBetterInHex (n : Nat) : Bool :=
  let hex := DigitVariety.ofNat 16 n
  0x1000 ≤ n && hex.isLow && (DigitVariety.ofNat 10 n).isAbove hex

def integerText (v : Int) : String :=
  if 0 ≤ v && readsBetterInHex v.toNat then
    "u0x" ++ String.ofList ((Nat.toDigits 16 v.toNat).map Char.toUpper)
  else toString v

def metadataName (s : String) : String := "!" ++ s

namespace Constant

def opening : Constant → String
  | inRange _ => "inrange "
  | _ => ""

mutual
def ident (names : Names) : Constant → String
  | int t v =>
    match t.unalias with
    | .int 1 => if v = 0 then "false" else "true"
    | _ => integerText v
  | float t v =>
    match t.unalias with
    | .float kind => v.text kind
    | _ => v.text .double
  | null _ => "null"
  | undef _ => "undef"
  | poison _ => "poison"
  | zero _ => "zeroinitializer"
  | none => "none"
  | truth b => if b then "true" else "false"
  | chars bs => "c" ++ quoteBytes bs
  | array _ es => "[" ++ commaSep (renders names es) ++ "]"
  | vector _ es => "<" ++ commaSep (renders names es) ++ ">"
  | struct _ packed fs => Ty.structText packed (renders names fs)
  | symbol id _ => (names.symbol id).symbolText
  | reached way id _ => way ++ " " ++ (names.symbol id).symbolText
  | blockAddress fn _ b => "blockaddress(" ++ (names.symbol fn).symbolText ++ ", " ++ (names.block fn b).text ++ ")"
  | cast op c t => op.text ++ " (" ++ render names c ++ " to " ++ t.text ++ ")"
  | gep inbounds elem c is _ =>
    "getelementptr " ++ (if inbounds then "inbounds " else "") ++ "(" ++ elem.text ++ ", " ++
      commaSep (render names c :: renders names is) ++ ")"
  | inRange c => ident names c
  | select c x y => "select (" ++ commaSep [render names c, render names x, render names y] ++ ")"
  | fneg x => "fneg (" ++ render names x ++ ")"
  | extractElement x i _ => "extractelement (" ++ commaSep [render names x, render names i] ++ ")"
  | insertElement x e i => "insertelement (" ++ commaSep [render names x, render names e, render names i] ++ ")"
  | shuffleVector x y m _ => "shufflevector (" ++ commaSep [render names x, render names y, render names m] ++ ")"
  | extractValue x is _ => "extractvalue (" ++ commaSep (render names x :: is.map toString) ++ ")"
  | insertValue x e is => "insertvalue (" ++ commaSep (render names x :: render names e :: is.map toString) ++ ")"
  | binary op flags x y => op.text ++ spaced flags ++ " (" ++ commaSep [render names x, render names y] ++ ")"
  | compare floating pred x y _ =>
    (if floating then "fcmp " else "icmp ") ++ pred ++ " (" ++ commaSep [render names x, render names y] ++ ")"

def render (names : Names) (c : Constant) : String := c.opening ++ c.type.text ++ " " ++ ident names c

def renders (names : Names) : List Constant → List String
  | [] => []
  | c :: cs => render names c :: renders names cs
end

end Constant

namespace Meta

mutual
def render (names : Names) : Meta → String
  | null => "null"
  | ref id => "!" ++ toString id
  | text bs => "!" ++ quoteBytes bs
  | const c => c.render names
  | tuple fields => "!\x7b" ++ commaSep (renders names fields) ++ "\x7d"
  | node kind fields => "!" ++ kind ++ "(" ++ commaSep (renderFields names fields) ++ ")"
  | operands fields => "\x7b" ++ commaSep (renders names fields) ++ "\x7d"
  | literal bs => quoteBytes bs
  | word s => s

def renders (names : Names) : List Meta → List String
  | [] => []
  | m :: ms => render names m :: renders names ms

def renderFields (names : Names) : List (String × Meta) → List String
  | [] => []
  | (key, m) :: ms =>
    (if key.isEmpty then render names m else key ++ ": " ++ render names m) :: renderFields names ms
end

end Meta

def Attachment.render (names : Names) (a : Attachment) : String :=
  metadataName a.name ++ " " ++ a.node.render names

def attachmentsPart (names : Names) (as : List Attachment) : String :=
  String.join (as.map fun a => ", " ++ a.render names)

def InlineAsm.text (a : InlineAsm) : String :=
  "asm" ++ spaced a.flags ++ " " ++ quoteBytes a.code ++ ", " ++ quoteBytes a.constraints

mutual
def Value.ident (names : Names) : Value → String
  | .local id _ => (names.localIdent id).text
  | .block id => (names.localIdent id).text
  | .const _ c => c.ident names
  | .asm _ _ a => a.text
  | .metadata _ _ content => content.ident names

def Value.render (names : Names) (v : Value) : String := v.type.text ++ " " ++ v.ident names

def Value.renders (names : Names) : List Value → List String
  | [] => []
  | v :: vs => v.render names :: Value.renders names vs

def Argument.ident (names : Names) : Argument Value → String
  | .value _ v => v.ident names
  | .debugValue v => v.render names
  | .debugList vs => "!DIArgList(" ++ commaSep (Value.renders names vs) ++ ")"
  | .debugNode m => m.render names
end

def Argument.render (names : Names) : Argument Value → String
  | .value attrs v => v.type.text ++ spaced attrs ++ " " ++ v.ident names
  | a => "metadata " ++ a.ident names

def Bundle.render (names : Names) (b : Bundle Value) : String :=
  quoteBytes b.tag ++ "(" ++ commaSep (b.inputs.map (·.render names)) ++ ")"

namespace Call

/-- A call from its calling convention to its bundles. Only a callee with a variable number of
arguments is written with its whole signature. -/
def render (names : Names) (result : Ty) (c : Call Value) : String :=
  let type := match c.signature? with
    | some (r, ps, true) => Ty.text (.func r ps true)
    | _ => result.text
  let bundles := if c.bundles.isEmpty then ""
    else " [ " ++ commaSep (c.bundles.map (·.render names)) ++ " ]"
  opt c.convention ++ spaced c.resultAttrs ++ spacePart c.space ++ " " ++ type ++ " " ++
    c.callee.ident names ++ "(" ++ commaSep (c.args.map (·.render names)) ++ ")" ++
    spaced c.attrs ++ bundles

end Call

def scopePart (scope : String) : String :=
  if scope.isEmpty then "" else " syncscope(" ++ quoteText scope ++ ")"

namespace Operation

def render (names : Names) (type : Ty) : Operation Value → String
  | fneg flags x => "fneg" ++ spaced flags ++ " " ++ x.render names
  | binary op flags x y => op.text ++ spaced flags ++ " " ++ x.render names ++ ", " ++ y.ident names
  | cast op x t => op.text ++ " " ++ x.render names ++ " to " ++ t.text
  | compare floating flags pred x y =>
    (if floating then "fcmp" else "icmp") ++ spaced flags ++ " " ++ pred ++ " " ++ x.render names ++
      ", " ++ y.ident names
  | alloca flags elem count align space =>
    "alloca" ++ spaced flags ++ " " ++ elem.text ++
      ((count.map fun n => ", " ++ n.render names).getD "") ++ alignPart align ++
      (if space = 0 then "" else "," ++ spacePart space)
  | load acc elem x =>
    "load" ++ (if acc.atomic then " atomic" else "") ++ (if acc.volatile then " volatile" else "") ++
      " " ++ elem.text ++ ", " ++ x.render names ++ scopePart acc.scope ++ opt acc.ordering ++
      alignPart acc.align
  | store acc x d =>
    "store" ++ (if acc.atomic then " atomic" else "") ++ (if acc.volatile then " volatile" else "") ++
      " " ++ x.render names ++ ", " ++ d.render names ++ scopePart acc.scope ++ opt acc.ordering ++
      alignPart acc.align
  | fence scope ordering => "fence" ++ scopePart scope ++ " " ++ ordering
  | cmpxchg flags a e n scope success failure =>
    "cmpxchg" ++ spaced flags ++ " " ++ commaSep [a.render names, e.render names, n.render names] ++
      scopePart scope ++ " " ++ success ++ " " ++ failure
  | atomicrmw volatile op a x scope ordering =>
    "atomicrmw" ++ (if volatile then " volatile" else "") ++ " " ++ op ++ " " ++
      commaSep [a.render names, x.render names] ++ scopePart scope ++ " " ++ ordering
  | gep inbounds elem x is =>
    "getelementptr " ++ (if inbounds then "inbounds " else "") ++ elem.text ++ ", " ++
      commaSep (x.render names :: is.map (·.render names))
  | extractElement x i => "extractelement " ++ commaSep [x.render names, i.render names]
  | insertElement x e i => "insertelement " ++ commaSep [x.render names, e.render names, i.render names]
  | shuffleVector x y m => "shufflevector " ++ commaSep [x.render names, y.render names, m.render names]
  | extractValue x is => "extractvalue " ++ commaSep (x.render names :: is.map toString)
  | insertValue x e is => "insertvalue " ++ commaSep (x.render names :: e.render names :: is.map toString)
  | phi flags incoming =>
    "phi" ++ spaced flags ++ " " ++ type.text ++ " " ++
      commaSep (incoming.map fun p => "[ " ++ p.1.ident names ++ ", " ++ p.2.ident names ++ " ]")
  | select flags c x y => "select" ++ spaced flags ++ " " ++ commaSep [c.render names, x.render names, y.render names]
  | freeze x => "freeze " ++ x.render names
  | vaArg x t => "va_arg " ++ x.render names ++ ", " ++ t.text
  | call tail c => (if tail.isEmpty then "" else tail ++ " ") ++ "call" ++ spaced c.fast ++ c.render names type
  | landingPad cleanup clauses =>
    "landingpad " ++ type.text ++ (if cleanup then "\n\t\tcleanup" else "") ++
      String.join (clauses.map fun p => "\n\t\t" ++ (if p.1 then "filter " else "catch ") ++ p.2.render names)
  | catchPad s args => "catchpad within " ++ s.ident names ++ " [" ++ commaSep (args.map (·.render names)) ++ "]"
  | cleanupPad s args => "cleanuppad within " ++ s.ident names ++ " [" ++ commaSep (args.map (·.render names)) ++ "]"

end Operation

def unwindPart (names : Names) (unwind : Option Value) : String :=
  match unwind with
  | some u => " unwind " ++ u.render names
  | none => " unwind to caller"

namespace Terminator

def render (names : Names) (type : Ty) : Terminator Value → String
  | ret none => "ret void"
  | ret (some x) => "ret " ++ x.render names
  | br t => "br " ++ t.render names
  | condBr c y n => "br " ++ commaSep [c.render names, y.render names, n.render names]
  | switch x d cases =>
    "switch " ++ commaSep [x.render names, d.render names] ++ " [\n" ++
      String.join (cases.map fun p => "\t\t" ++ p.1.render names ++ ", " ++ p.2.render names ++ "\n") ++ "\t]"
  | indirectBr a ts => "indirectbr " ++ a.render names ++ ", [" ++ commaSep (ts.map (·.render names)) ++ "]"
  | invoke c n u =>
    "invoke" ++ c.render names type ++ "\n\t\tto " ++ n.render names ++ " unwind " ++ u.render names
  | callBr c n os =>
    "callbr" ++ c.render names type ++ "\n\t\tto " ++ n.render names ++ " [" ++
      commaSep (os.map (·.render names)) ++ "]"
  | resume x => "resume " ++ x.render names
  | catchSwitch s hs u =>
    "catchswitch within " ++ s.ident names ++ " [" ++ commaSep (hs.map (·.render names)) ++ "]" ++ unwindPart names u
  | catchRet p t => "catchret from " ++ p.ident names ++ " to " ++ t.render names
  | cleanupRet p u => "cleanupret from " ++ p.ident names ++ unwindPart names u
  | unreachable => "unreachable"

end Terminator

namespace Instruction

def isNamed (i : Instruction) : Bool := i.op.hasResult && !i.type.isVoid

def render (names : Names) (i : Instruction) : String :=
  (if i.isNamed then i.ident.text ++ " = " else "") ++ i.op.render names i.type ++
    attachmentsPart names i.attachments

end Instruction

namespace Terminal

def isNamed (t : Terminal) : Bool := t.op.hasResult && !t.type.isVoid

def render (names : Names) (t : Terminal) : String :=
  (if t.isNamed then t.ident.text ++ " = " else "") ++ t.op.render names t.type ++
    attachmentsPart names t.attachments

end Terminal

def Block.render (names : Names) (b : Block) : String :=
  b.ident.label ++ "\n" ++ String.join (b.insts.map fun i => "\t" ++ i.render names ++ "\n") ++
    "\t" ++ b.term.render names

def Param.render (p : Param) : String := p.type.text ++ spaced p.attrs ++ " " ++ p.ident.text

/-- A symbol's comdat, which is not named when it has the symbol's own name. -/
def comdatPart (comdat : Option String) (own : String) : String :=
  match comdat with
  | some name => if name == own then "comdat" else "comdat($" ++ encodeName name ++ ")"
  | none => ""

def constantPart (names : Names) (key : String) (c : Option Constant) : String :=
  (c.map fun c => key ++ c.render names).getD ""

def UseOrder.render (names : Names) (o : UseOrder) : String :=
  "uselistorder " ++ o.value.render names ++ ", \x7b " ++ commaSep (o.positions.map toString) ++ " \x7d"

def BlockUseOrder.render (names : Names) (o : BlockUseOrder) : String :=
  "uselistorder_bb " ++ (names.symbol o.function).symbolText ++ ", " ++ (names.block o.function o.block).text ++
    ", \x7b " ++ commaSep (o.positions.map toString) ++ " \x7d"

def quotedPart (key : String) (bs : List UInt8) : String :=
  if bs.isEmpty then "" else key ++ quoteBytes bs

namespace Function

def headerText (names : Names) (f : Function) : String :=
  let params := f.params.map Param.render ++ if f.variadic then ["..."] else []
  opt f.preemption ++ opt f.visibility ++ opt f.storage ++ opt f.convention ++ spaced f.resultAttrs ++
    " " ++ f.result.text ++ " " ++ f.symbol.symbolText ++ "(" ++ commaSep params ++ ")" ++
    opt f.unnamedAddr ++ spacePart f.space ++ spaced f.attrs ++ quotedPart " section " f.sectionName ++
    quotedPart " partition " f.partition ++ opt (comdatPart f.comdat f.name) ++
    (if f.align = 0 then "" else " align " ++ toString f.align) ++ quotedPart " gc " f.collector ++
    constantPart names " prefix " f.prefixData ++ constantPart names " prologue " f.prologueData ++
    constantPart names " personality " f.personality

def render (names : Names) (f : Function) : String :=
  if f.isDeclaration then
    "declare" ++ spaced (f.attachments.map (·.render names)) ++ opt f.linkage ++ f.headerText names
  else
    "define" ++ opt f.linkage ++ f.headerText names ++ spaced (f.attachments.map (·.render names)) ++
      " \x7b\n" ++ "\n".intercalate (f.blocks.map fun b => b.render names ++ "\n") ++
      (if f.useOrders.isEmpty then "" else "\n") ++
      String.join (f.useOrders.map fun o => "\t" ++ o.render names ++ "\n") ++ "\x7d"

end Function

def Global.render (names : Names) (g : Global) : String :=
  g.symbol.symbolText ++ " =" ++ opt g.linkage ++ opt g.preemption ++ opt g.visibility ++ opt g.storage ++
    opt g.threadLocal ++ opt g.unnamedAddr ++ spacePart g.space ++
    (if g.externallySet then " externally_initialized" else "") ++
    (if g.immutable then " constant " else " global ") ++ g.content.text ++
    ((g.init.map fun c => " " ++ c.ident names).getD "") ++ quotedPart ", section " g.sectionName ++
    quotedPart ", partition " g.partition ++
    (if g.comdat.isNone then "" else ", " ++ comdatPart g.comdat g.name) ++ alignPart g.align ++
    attachmentsPart names g.attachments ++ spaced g.attrs

/-- An alias; a computed target is written without its type. -/
def Alias.render (names : Names) (a : Alias) : String :=
  a.symbol.symbolText ++ " =" ++ opt a.linkage ++ opt a.preemption ++ opt a.visibility ++ opt a.storage ++
    opt a.threadLocal ++ opt a.unnamedAddr ++ (if a.resolved then " ifunc " else " alias ") ++ a.content.text ++ ", " ++
    (if a.target.isExpression then a.target.ident names else a.target.render names) ++
    quotedPart ", partition " a.partition

def TypeDef.render (d : TypeDef) : String :=
  Ty.typeNameText d.shown ++ " = type " ++
    match d.body with
    | .opaqueStruct => "opaque"
    | .is t => t.text

def AttrGroup.render (g : AttrGroup) : String :=
  "attributes #" ++ toString g.id ++ " = \x7b " ++ " ".intercalate g.attrs ++ " \x7d"

def NamedMeta.render (names : Names) (n : NamedMeta) : String :=
  metadataName n.name ++ " = !\x7b" ++ commaSep (n.nodes.map (·.render names)) ++ "\x7d"

def MetaDef.render (names : Names) (d : MetaDef) : String :=
  "!" ++ toString d.id ++ " = " ++ (if d.distinct then "distinct " else "") ++ d.body.render names

def Comdat.render (c : Comdat) : String := "$" ++ encodeName c.name ++ " = comdat " ++ c.kind

def lines (ls : List String) : String := String.join (ls.map (· ++ "\n"))

namespace Module

def sections (m : Module) : List String :=
  let names := m.names none
  [ lines ((if m.sourceName.isEmpty then [] else ["source_filename = " ++ quoteBytes m.sourceName]) ++
      (if m.layout.isEmpty then [] else ["target datalayout = " ++ quoteBytes m.layout]) ++
      (if m.triple.isEmpty then [] else ["target triple = " ++ quoteBytes m.triple])),
    lines (m.asms.map fun a => "module asm " ++ quoteBytes a),
    lines ((m.types.mergeSort fun a b => naturalLe a.name b.name).map TypeDef.render),
    lines (m.comdats.map Comdat.render),
    lines (m.globals.map (·.render names)),
    lines ((m.aliases.filter (!·.resolved)).map (·.render names)),
    lines ((m.aliases.filter (·.resolved)).map (·.render names)),
    "\n".intercalate (m.functions.map fun f => f.render (m.names (some f)) ++ "\n"),
    lines (m.attrGroups.map AttrGroup.render),
    lines ((m.namedMeta.mergeSort fun a b => naturalLe a.name b.name).map (·.render names)),
    lines ((m.metaDefs.mergeSort fun a b => a.id ≤ b.id).map (·.render names)),
    lines (m.useOrders.map (·.render names)),
    lines (m.blockOrders.map (·.render names)) ]

def text (m : Module) : String := "\n".intercalate (m.sections.filter (!·.isEmpty))

end Module
end CallFusion.Ir
