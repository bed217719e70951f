import CallFusion.Ir.Parser.Type

/-! Reading constants and operand values. -/
namespace CallFusion.Ir

def elementType? (table : TypeTable) : Ty → List Nat → Option Ty
  | t, [] => some t
  | t, i :: is =>
    let body := match t.unalias with
      | .named name =>
        match table.find? name with
        | some (.is b) => b
        | _ => t.unalias
      | u => u
    match body with
    | .array _ elem => elementType? table elem is
    | .vector _ _ elem => elementType? table elem is
    | .struct _ fields =>
      match fields[i]? with
      | some f => elementType? table f is
      | none => none
    | _ => none

def structBody? (table : TypeTable) (t : Ty) : Option (Bool × List Ty) :=
  match t.unalias with
  | .struct packed fields => some (packed, fields)
  | .named name =>
    match table.find? name with
    | some (.is (.struct packed fields)) => some (packed, fields)
    | _ => none
  | _ => none

def arrayLength? (t : Ty) : Option UInt64 :=
  match t.unalias with
  | .array length _ => some length
  | _ => none

def vectorLength? (t : Ty) : Option UInt64 :=
  match t.unalias with
  | .vector _ length _ => some length
  | _ => none

def vectorElem? (t : Ty) : Option Ty :=
  match t.unalias with
  | .vector _ _ elem => some elem
  | _ => none

def addressSpace (t : Ty) : Nat :=
  match ((vectorElem? t).getD t).unalias with
  | .pointer _ space => space
  | _ => 0

/-- The type of an address computed from `elem` by indices, given each index's value and type. The
first index only steps over whole elements, and the address space stays the same. -/
def addressType? (table : TypeTable) (elem source : Ty) (indices : List (Nat × Ty)) : Option Ty :=
  match elementType? table elem ((indices.drop 1).map (·.1)) with
  | none => none
  | some t =>
    let pointer := Ty.pointer t (addressSpace source)
    match vectorLength? source <|> indices.findSome? (fun p => vectorLength? p.2) with
    | some length => some (.vector false length pointer)
    | none => some pointer

def comparisonType (t : Ty) : Ty :=
  match vectorLength? t with
  | some length => .vector false length (.int 1)
  | none => .int 1

def shuffleType? (x mask : Ty) : Option Ty :=
  match vectorElem? x, vectorLength? mask with
  | some elem, some length => some (.vector false length elem)
  | _, _ => none

/-- The number that a constant index stands for; a vector of indices stands for its first. -/
def Constant.natural : Constant → Nat
  | .int _ v => v.toNat
  | .truth b => b.toNat
  | .inRange c => c.natural
  | .vector _ (c :: _) => c.natural
  | _ => 0

namespace Read

/-- The value of an integer literal; a signed hexadecimal one is in two's complement. -/
def integerValue (bits : UInt64) (s : String) : Int :=
  if s.startsWith "-" then -(digitsValue (s.drop 1).toString : Int)
  else if s.startsWith "u0x" then hexDigitsValue (s.drop 3).toString
  else if s.startsWith "s0x" then
    let n := hexDigitsValue (s.drop 3).toString
    if n / Nat.pow 2 (bits.toNat - 1) % 2 = 1 then (n : Int) - Nat.pow 2 bits.toNat else n
  else digitsValue s

def intPredicates : List String := ["eq", "ne", "ugt", "uge", "ult", "ule", "sgt", "sge", "slt", "sle"]

def floatPredicates : List String :=
  ["false", "oeq", "ogt", "oge", "olt", "ole", "one", "ord", "ueq", "ugt", "uge", "ult", "ule", "une", "uno", "true"]

def fastFlags : List String := ["nnan", "ninf", "nsz", "arcp", "contract", "afn", "reassoc", "fast"]

def overflowFlags : List String := ["nuw", "nsw"]

def arithmeticFlags : BinaryOp → List String
  | .add | .sub | .mul | .shl => overflowFlags
  | .udiv | .sdiv | .lshr | .ashr => ["exact"]
  | .fadd | .fsub | .fmul | .fdiv | .frem => fastFlags
  | _ => []

def castOp? (w : String) : Option CastOp := CastOp.all.find? (·.text == w)

def binaryOp? (w : String) : Option BinaryOp := BinaryOp.all.find? (·.text == w)

def constantFlags (op : BinaryOp) : List String := (arithmeticFlags op).filter (!fastFlags.contains ·)

def symbolNamed (i : Ident) : Read (SymbolId × Ty) := do
  match (← read).symbol? i with
  | some s => return s
  | none => fail (.undefinedName i.symbolText)

def functionNamed (i : Ident) : Read (SymbolId × Ty) := do
  let (id, type) ← symbolNamed i
  ensure ((← read).trusting || (← read).isFunction id) "function" (id, type)

def calledNamed (i : Ident) : Read (SymbolId × Ty) := do
  let (id, type) ← symbolNamed i
  ensure ((← read).trusting || !(← read).isVariable id) "function" (id, type)

/-- Takes a constant whose own type has to be the one stated, if one is. -/
def ofType (stated : Ty) (c : Constant) : Read Constant := do
  match stated with
  | .unset => return c
  | _ => ensure (← agree stated c.type) "type" c

def nonEmpty {α : Type} (xs : List α) : Read (List α) := ensure (!xs.isEmpty) "empty list" xs

mutual
def constantAt : Nat → Ty → Read Constant
  | 0, _ => unexpected
  | n + 1, t => do
    match ← peek with
    | some (.number s) =>
      match t.unalias with
      | .int bits => advance; return .int t (integerValue bits s)
      | _ => unexpected
    | some (.real s) =>
      match t.unalias with
      | .float kind =>
        match FloatLiteral.read? kind s with
        | some v => advance; return .float t v
        | none => unexpected
      | _ => unexpected
    | some (.globalName i) =>
      advance
      let (id, type) ← symbolNamed i
      return .symbol id (if (← read).trusting then t else type)
    | some (.mark '[') =>
      advance
      let elems ← itemsUntil ']' (typedAt n) n
      -- only a list without elements has to be as long as the type says
      let fits := match arrayLength? t with
        | some length => length == 0 || !elems.isEmpty
        | none => false
      ensure fits "type" (.array t elems)
    | some (.mark '\x7b') =>
      advance
      structAt n t
    | some (.mark '<') =>
      advance
      if ← acceptMark '\x7b' then
        let c ← structAt n t
        expectMark '>'
        return c
      else
        let elems ← nonEmpty (← itemsUntil '>' (typedAt n) n)
        ensure (vectorLength? t).isSome "type" (.vector t elems)
    | some (.word w) =>
      advance
      keywordConstantAt n t w
    | _ => unexpected

def typedAt : Nat → Read Constant
  | 0 => unexpected
  | n + 1 => do constantAt n (← typeAt (n + 1))

def structAt : Nat → Ty → Read Constant
  | 0, _ => unexpected
  | n + 1, t => do
    let fields ← itemsUntil '\x7d' (typedAt n) n
    match structBody? (← read).table t with
    | some (packed, _) => return .struct t packed fields
    | none => fail (.invalid "type")

def pairAt : Nat → Read (Constant × Constant)
  | 0 => unexpected
  | n + 1 => do
    expectMark '('
    let x ← typedAt n
    expectMark ','
    let y ← typedAt n
    expectMark ')'
    return (x, y)

def tripleAt : Nat → Read (Constant × Constant × Constant)
  | 0 => unexpected
  | n + 1 => do
    expectMark '('
    let x ← typedAt n
    expectMark ','
    let y ← typedAt n
    expectMark ','
    let z ← typedAt n
    expectMark ')'
    return (x, y, z)

def indexAt : Nat → Read Constant
  | 0 => unexpected
  | n + 1 => do
    if ← acceptWord "inrange" then return .inRange (← typedAt n) else typedAt n

def keywordConstantAt : Nat → Ty → String → Read Constant
  | 0, _, _ => unexpected
  | n + 1, t, w => do
    match w with
    | "true" => ensure t.isTruth "type" (.truth true)
    | "false" => ensure t.isTruth "type" (.truth false)
    | "null" => ensure t.isPointer "type" (.null t)
    | "undef" => return .undef t
    | "poison" => return .poison t
    | "zeroinitializer" => return .zero t
    | "none" => ensure t.isToken "type" .none
    | "c" =>
      let c := Constant.chars (← stringLiteral)
      ensure (t.same c.type) "type" c
    | "dso_local_equivalent" | "no_cfi" =>
      let (id, type) ← calledNamed (← globalName)
      ofType t (.reached w id type)
    | "blockaddress" =>
      expectMark '('
      let (id, type) ← functionNamed (← globalName)
      expectMark ','
      let block ← localName
      expectMark ')'
      match (← read).blockOf? id block with
      | some b => ofType t (.blockAddress id type b)
      | none => fail (.undefinedName block.text)
    | "getelementptr" =>
      let inbounds ← acceptWord "inbounds"
      expectMark '('
      let elem ← typeAt n
      expectMark ','
      let source ← typedAt n
      let indices ← if ← acceptMark ',' then items (indexAt n) n else pure []
      expectMark ')'
      match addressType? (← read).table elem source.type (indices.map fun c => (c.natural, c.type)) with
      | some type => ofType t (.gep inbounds elem source indices type)
      | none => fail (.invalid "index")
    | "select" =>
      let (c, x, y) ← tripleAt n
      ofType t (.select c x y)
    | "fneg" =>
      expectMark '('
      let x ← typedAt n
      expectMark ')'
      ofType t (.fneg x)
    | "icmp" | "fcmp" =>
      let floating := w == "fcmp"
      match ← acceptAny (if floating then floatPredicates else intPredicates) with
      | none => unexpected
      | some pred =>
        let (x, y) ← pairAt n
        ofType t (.compare floating pred x y (comparisonType x.type))
    | "extractelement" =>
      let (x, i) ← pairAt n
      match vectorElem? x.type with
      | some elem => ofType t (.extractElement x i elem)
      | none => if (← read).trusting then return .extractElement x i t else fail (.invalid "vector")
    | "insertelement" =>
      let (x, e, i) ← tripleAt n
      ofType t (.insertElement x e i)
    | "shufflevector" =>
      let (x, y, m) ← tripleAt n
      match shuffleType? x.type m.type with
      | some type => ofType t (.shuffleVector x y m type)
      | none => if (← read).trusting then return .shuffleVector x y m t else fail (.invalid "vector")
    | "extractvalue" =>
      expectMark '('
      let x ← typedAt n
      expectMark ','
      let indices ← items natural n
      expectMark ')'
      match elementType? (← read).table x.type indices with
      | some type => ofType t (.extractValue x indices type)
      | none => if (← read).trusting then return .extractValue x indices t else fail (.invalid "index")
    | "insertvalue" =>
      expectMark '('
      let x ← typedAt n
      expectMark ','
      let e ← typedAt n
      expectMark ','
      let indices ← items natural n
      expectMark ')'
      ofType t (.insertValue x e indices)
    | _ =>
      match castOp? w, binaryOp? w with
      | some op, _ =>
        expectMark '('
        let source ← typedAt n
        expectWord "to"
        let target ← typeAt n
        expectMark ')'
        ofType t (.cast op source target)
      | _, some op =>
        let flags ← acceptMany (constantFlags op) 8
        let (x, y) ← pairAt n
        ofType t (.binary op flags x y)
      | _, _ => fail (.unexpected (some (.word w)))
end

def constant (t : Ty) : Read Constant := do constantAt (4 * (← remaining)) t

def typedConstant : Read Constant := do constant (← type)

/-- The mention number of a constant read from text: the shared constants have theirs. -/
def mentionOf (c : Constant) : Read Nat := do
  match c with
  | .symbol _ _ => return 0
  | .none => return Value.noToken.mention
  | .truth b => return (Value.truth b).mention
  | _ => freshMention

def asmFlags : List String := ["sideeffect", "alignstack", "inteldialect"]

def value (t : Ty) : Read Value := do
  match ← peek with
  | some (.localName i) =>
    advance
    match (← read).value? i with
    | some v => return v
    | none => fail (.undefinedName i.text)
  | some (.word "asm") =>
    advance
    let flags ← acceptInOrder asmFlags
    -- whether the code may unwind is not kept
    let _ ← acceptWord "unwind"
    let code ← stringLiteral
    expectMark ','
    let constraints ← stringLiteral
    return .asm (← freshMention) t ⟨flags, code, constraints⟩
  | _ =>
    let c ← constant t
    return .const (← mentionOf c) c

def typedValue : Read Value := do value (← type)

def localValue : Read Value := do
  match ← peek with
  | some (.localName _) => value .label
  | _ => unexpected

def blockValue : Read Value := do
  let v ← localValue
  ensure ((← read).trusting || v.block?.isSome) "block" v

def labelValue : Read Value := do
  expectWord "label"
  blockValue

end Read
end CallFusion.Ir
