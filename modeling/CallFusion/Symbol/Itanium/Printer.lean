import CallFusion.Symbol.Itanium.Vocabulary

/-!
The text of a component. A type is written around what it declares: what stands around a type waits
in a stack until the type has written its own left part.
-/
namespace CallFusion.Symbol.Itanium

/-- What was written, last character first, the components that wait, the innermost first, and the
last character that counts for blanks between marks. -/
structure Sheet where
  text : List Char := []
  waiting : List Node := []
  last : Option Char := none

abbrev Write := StateM Sheet

/-- Either a component itself, or what it writes around the type it waits for. -/
inductive Job where
  | whole (n : Node)
  | around (n : Node)

abbrev Writer := Job → Write Unit

def putNumbered (s : String) : Write Unit := modify fun t => { t with text := s.toList.reverse ++ t.text }

def put (s : String) : Write Unit := do
  putNumbered s
  if !s.isEmpty then modify fun t => { t with last := t.text.head? }

def lastChar : Write (Option Char) := return (← get).last

def bracketed (opening closing : String) (inner : Write Unit) : Write Unit := do
  put opening
  inner
  put closing

def withWaiting (stack : List Node) (inner : Write Unit) : Write Unit := do
  let held := (← get).waiting
  modify ({ · with waiting := stack })
  inner
  modify ({ · with waiting := held })

def isWaiting : Write Bool := return !(← get).waiting.isEmpty

def pop : Write Unit := modify fun s => { s with waiting := s.waiting.tail }

mutual
def Node.isBlank : Node → Bool
  | ⟨.pack _, items⟩ => allBlank items
  | ⟨.list, items⟩ => items.isEmpty
  | ⟨.expansion, [pattern, _]⟩ => pattern.isBlank
  | _ => false

def allBlank : List Node → Bool
  | [] => true
  | n :: ns => n.isBlank && allBlank ns
end

/-- Names, function parameters and braced lists stand in an expression without brackets. -/
def Node.isPrimary : Node → Bool
  | ⟨.name _, _⟩ => true
  | ⟨.braces, _⟩ => true
  | ⟨.functionParam _, _⟩ => true
  | ⟨.qualified isLocal, _⟩ => !isLocal
  | _ => false

namespace Writer

def print (write : Writer) (n : Node) : Write Unit := write (.whole n)

def commas (write : Writer) : List Node → Write Unit
  | [] => return
  | [n] => write.print n
  | n :: ns => do
    write.print n
    put ", "
    write.commas ns

def arguments (write : Writer) (ns : List Node) : Write Unit := write.commas (ns.filter (!·.isBlank))

def operand (write : Writer) (n : Node) : Write Unit :=
  if n.isPrimary then write.print n else bracketed "(" ")" (write.print n)

def printWaiting (write : Writer) : Write Unit := do
  match (← get).waiting with
  | [] => return
  | n :: rest =>
    modify ({ · with waiting := rest })
    write (.around n)

def printAllWaiting (write : Writer) : Write Unit := do
  (← get).waiting.forM fun _ => do if ← isWaiting then write.printWaiting

/-- Writes what waits up to the qualifiers of methods, which come back in their order. -/
def printDeclarator (write : Writer) : Write (List Node) := do
  let stack := (← get).waiting
  stack.foldlM (fun kept _ => do
    match (← get).waiting with
    | ⟨.method ref cell, parts⟩ :: rest =>
      modify ({ · with waiting := rest })
      return ⟨.method ref cell, parts⟩ :: kept
    | [] => return kept
    | _ =>
      write.printWaiting
      return kept) []

/-- What brackets the part of a function type in front of its parameters: nothing, brackets, or
brackets behind a blank. -/
def bracketsFor : List Node → Option Bool
  | [] => none
  | n :: rest =>
    match n.form with
    | .pointer | .reference | .rvalue | .doubled _ _ => some false
    | .qualifiedType | .suffixed _ | .member => some true
    | _ => bracketsFor rest

def functionTail (write : Writer) (params : List Node) : Write Unit := do
  let kept ← match bracketsFor (← get).waiting with
    | some spaced => do
      let last ← lastChar
      let spaced := spaced || (last != some '(' && last != some '*')
      if spaced && last != some ' ' then put " "
      put "("
      let kept ← write.printDeclarator
      put ")"
      pure kept
    | none => write.printDeclarator
  bracketed "(" ")" (write.arguments params)
  modify ({ · with waiting := kept })
  write.printAllWaiting

def arrayTail (write : Writer) (dimension : Node) : Write Unit := do
  let stack := (← get).waiting
  let blank ← stack.foldlM (fun blank _ => do
    match (← get).waiting with
    | [] => return blank
    | n :: _ =>
      if n.isArray then
        write.printWaiting
        return if n.form == .array then "" else blank
      else
        put " ("
        write.printAllWaiting
        put ")"
        return blank) " "
  put (blank ++ "[")
  write.print dimension
  put "]"

/-- A type that waits while its base is written, and then writes itself unless the base did. -/
def surround (write : Writer) (whole base : Node) (mark : Write Unit) : Write Unit := do
  modify fun s => { s with waiting := whole :: s.waiting }
  write.print base
  if ← isWaiting then
    mark
    pop

/-- A type that waits while its base is written, and no longer while it writes itself. -/
def enclose (write : Writer) (whole base : Node) : Write Unit := do
  modify fun s => { s with waiting := whole :: s.waiting }
  write.print base
  if ← isWaiting then write.printWaiting

def qualifiers (write : Writer) (qs : List Node) : Write Unit :=
  qs.forM fun q => do
    put " "
    write.print q

def around (write : Writer) (n : Node) : Write Unit :=
  match n with
  | ⟨.typed, [name, _]⟩ => write.print name
  | ⟨.function hasResult _, ts⟩ => write.functionTail (if hasResult then ts.drop 1 else ts)
  | ⟨.qualifiedType, _ :: qs⟩ => write.qualifiers qs
  | ⟨.method ref _, _ :: qs⟩ => do
    write.qualifiers qs
    if !ref.isEmpty then put (" " ++ ref)
  | ⟨.pointer, _⟩ => put "*"
  | ⟨.reference, _⟩ => put "&"
  | ⟨.rvalue, _⟩ => put "&&"
  | ⟨.doubled isRvalue _, _⟩ => put (if isRvalue then "&&" else "&")
  | ⟨.suffixed text, _⟩ => put text
  | ⟨.vendor, [_, q]⟩ => do
    put " "
    write.print q
  | ⟨.array, [dimension, _]⟩ => write.arrayTail dimension
  | ⟨.vector, [dimension, _]⟩ => do
    put " __vector("
    write.print dimension
    put ")"
  | ⟨.member, [owner, _]⟩ => do
    if (← lastChar) != some '(' then put " "
    write.print owner
    put "::*"
  | ⟨.constrainedHead, [_, name]⟩ => write.print name
  | ⟨.valueHead, [_, name]⟩ => write.print name
  | ⟨.packHead, [head]⟩ => do
    put "..."
    match head with
    | ⟨.valueHead, [_, name]⟩ => write.print name
    | _ => return
  | n => write.print n

def literal (write : Writer) (type : Node) (text : String) (negative : Bool) : Write Unit := do
  let number := (if negative then "-" else "") ++ text
  let spelled : Option String := match type.form with
    | .builtin t =>
      match integerEndings.find? (·.1 == t) with
      | some (_, ending) => some (number ++ ending)
      | none =>
        if t == "bool" && number == "0" then some "false"
        else if t == "bool" && number == "1" then some "true"
        else if t == "decltype(nullptr)" && (text.isEmpty || text == "0") then some t
        else none
    | _ => none
  let isFloat := match type.form with
    | .builtin t => floatTypes.contains t
    | _ => false
  match spelled with
  | some s => put s
  | none =>
    bracketed "(" ")" (write.print type)
    put (if isFloat then "[" ++ number ++ "]" else number)

def symbol (write : Writer) (op : Node) : Write Unit :=
  match op.form with
  | .operator text => put text
  | _ => write.print op

def unary (write : Writer) ( isSuffix isSizeof : Bool) (op e : Node) : Write Unit := do
  let e := match op, e with
    | ⟨.operator "&", _⟩, ⟨.typed, [name, ⟨.function _ _, _⟩]⟩ => name
    | _, _ => e
  if isSuffix then write.operand e
  match op with
  | ⟨.cast, [t]⟩ => bracketed "(" ")" (write.print t)
  | _ => write.symbol op
  if !isSuffix then
    if op.form == .operator "::" then write.print e
    else if isSizeof || op.form == .operator "__alignof__" then bracketed "(" ")" (write.print e)
    else write.operand e

def infixed (write : Writer) (op left right : Node) : Write Unit := do
  let isCall := op.form == .operator "()"
  match isCall, left with
  | true, ⟨.typed, [_, ⟨.function true _, _⟩]⟩ => write.print left
  | true, ⟨.typed, [name, _]⟩ => write.operand name
  | _, _ => write.operand left
  if op.form == .operator "[]" then
    put "["
    write.print right
    put "]"
  else
    if !isCall then write.symbol op
    write.operand right

def isCastWord (op : Node) : Bool :=
  match op.form with
  | .operator text => 1 < (text.splitOn "cast").length
  | _ => false

/-- A value for a member, an element or a range of elements. Assignment has the same mark, but a
literal is not assigned to. -/
def isDesignated : Node → Bool
  | ⟨.binary, [⟨.operator "]=", _⟩, _, _]⟩ => true
  | ⟨.binary, [⟨.operator "=", _⟩, left, _]⟩ =>
    match left.form with
    | .literal _ _ => false
    | _ => true
  | ⟨.trinary, ⟨.operator "[...]=", _⟩ :: _⟩ => true
  | _ => false

def designatedValue (write : Writer) (value : Node) : Write Unit := do
  if isDesignated value then write.print value
  else
    put "="
    write.operand value

def binary (write : Writer) (op left right : Node) : Write Unit := do
  if isCastWord op then
    write.symbol op
    put "<"
    write.print left
    put ">"
    bracketed "(" ")" (write.print right)
  else if isDesignated ⟨.binary, [op, left, right]⟩ then
    let isElement := op.form == .operator "]="
    put (if isElement then "[" else ".")
    write.print left
    put (if isElement then "]" else "")
    write.designatedValue right
  else if op.form == .operator ">" || op.form == .operator ">>" then
    -- so that it is not taken for the end of template arguments
    bracketed "(" ")" (write.infixed op left right)
  else write.infixed op left right

def lambdaTypes (write : Writer) : List Node → Write Unit
  | [heads, headConstraint, types, callConstraint] => do
    if !heads.parts.isEmpty then
      put "<"
      write.commas heads.parts
      put ">"
    headConstraint.parts.forM fun c => do
      put " requires "
      write.print c
      put " "
    bracketed "(" ")" (write.commas types.parts)
    callConstraint.parts.forM fun c => do
      put " requires "
      write.print c
  | _ => return

def argumentCount (args : List Node) : Nat :=
  args.foldl (fun k a => k + match a.form with
    | .pack _ => a.parts.length
    | .list => a.parts.length
    | _ => 1) 0

def template (write : Writer) (base : Node) (args : List Node) : Write Unit := withWaiting [] do
  write.print base
  if (← lastChar) == some '<' then put " "
  put "<"
  write.arguments args
  if (← lastChar) == some '>' then put " "
  put ">"

def operatorName (text : String) : String :=
  "operator" ++ (if (text.toList.head?.any Char.isLower) then " " else "") ++
    (if text.endsWith " " then (text.dropEnd 1).toString else text)

def sandwich (write : Writer) (before : String) (ns : List Node) (after : String) : Write Unit := do
  put before
  write.commas ns
  put after

def namePart (write : Writer) : Node → Write Unit
  | ⟨.name text, _⟩ => put text
  | ⟨.headName text, _⟩ => put text
  | ⟨.operator text, _⟩ => put (operatorName text)
  | ⟨.unnamed k, _⟩ => put ("\x7bunnamed type#" ++ toString (k + 1) ++ "\x7d")
  | ⟨.qualified _, [scope, last]⟩ => do
    write.print scope
    put "::"
    write.print last
  | ⟨.template, base :: args⟩ => write.template base args
  | ⟨.tagged, [n, tag]⟩ => do
    write.print n
    write.sandwich "[abi:" [tag] "]"
  | ⟨.structor destroys, n :: _⟩ => do
    if destroys then put "~"
    write.print n
  | ⟨.cast, [t]⟩ => write.sandwich "operator " [t] ""
  | ⟨.defaultArg k, [n]⟩ => write.sandwich ("\x7bdefault arg#" ++ toString (k + 1) ++ "\x7d::") [n] ""
  | ⟨.friend, [n]⟩ => write.sandwich "friend " [n] ""
  | ⟨.bindings, ns⟩ => write.sandwich "[" ns "]"
  | ⟨.closure k, parts⟩ => do
    put "\x7blambda"
    write.lambdaTypes parts
    put ("#" ++ toString (k + 1) ++ "\x7d")
  | ⟨.module isPartition, own :: parent⟩ => do
    parent.forM write.print
    put (if isPartition then ":" else if parent.isEmpty then "" else ".")
    write.print own
  | ⟨.ofModule, [n, m]⟩ => do
    write.print n
    put "@"
    write.print m
  | _ => return

def typePart (write : Writer) (n : Node) : Write Unit :=
  match n with
  | ⟨.builtin text, _⟩ => put text
  | ⟨.param _, [arg]⟩ => write.print arg
  | ⟨.autoParam k, _⟩ => putNumbered ("auto:" ++ toString (k + 1))
  | ⟨.binaryFloat bits, _⟩ => putNumbered ("_Float" ++ toString bits)
  | ⟨.function hasResult isLocal, ts⟩ => do
    match hasResult && !isLocal, ts with
    | true, result :: params =>
      modify fun s => { s with waiting := n :: s.waiting }
      write.print result
      if ← isWaiting then
        pop
        put " "
        write.functionTail params
    | _, _ => write.functionTail (if hasResult then ts.drop 1 else ts)
  | ⟨.qualifier text, es⟩ => do
    put text
    if !es.isEmpty then bracketed "(" ")" (write.commas (es.filter fun e => !(e.form == .list && e.parts.isEmpty)))
  | ⟨.qualifiedType, base :: qs⟩ => write.surround n base (write.qualifiers qs)
  | ⟨.method _ _, base :: _⟩ => write.enclose n base
  | ⟨.pointer, [t]⟩ => write.surround n t (put "*")
  | ⟨.reference, [t]⟩ => write.surround n t (put "&")
  | ⟨.rvalue, [t]⟩ => write.surround n t (put "&&")
  | ⟨.doubled isRvalue _, [t]⟩ => write.surround n t (put (if isRvalue then "&&" else "&"))
  | ⟨.suffixed text, [t]⟩ => write.surround n t (put text)
  | ⟨.vendor, [t, _]⟩ => write.enclose n t
  | ⟨.array, [dimension, t]⟩ => do
    modify fun s => { s with waiting := n :: s.waiting }
    write.print t
    if ← isWaiting then
      pop
      write.arrayTail dimension
  | ⟨.vector, [_, t]⟩ => write.enclose n t
  | ⟨.member, [_, t]⟩ => write.enclose n t
  | ⟨.fixed accumulates saturates, [t]⟩ => do
    if saturates then put "_Sat "
    if t.form != .builtin "int" then write.sandwich "" [t] " "
    put (if accumulates then "_Accum" else "_Fract")
  | ⟨.bitInt signed, [bits]⟩ => write.sandwich ((if signed then "" else "unsigned ") ++ "_BitInt(") [bits] ")"
  | ⟨.elaborated kind, [t]⟩ => write.sandwich (kind ++ " ") [t] ""
  | ⟨.transformed text, [t]⟩ => write.sandwich (text ++ "(") [t] ")"
  | ⟨.placeholder text, [c]⟩ => write.sandwich "" [c] (" " ++ text)
  | ⟨.decltype, [e]⟩ => do
    put "decltype "
    bracketed "(" ")" (write.print e)
  | ⟨.explicitObject, [t]⟩ => write.sandwich "this " [t] ""
  | ⟨.declaredArg, [_, arg]⟩ => write.print arg
  | ⟨.typeHead, [name]⟩ => do
    put "typename "
    write.printAllWaiting
    write.print name
  | ⟨.constrainedHead, [c, name]⟩ => write.surround n c (write.sandwich " " [name] "")
  | ⟨.valueHead, [t, name]⟩ => write.surround n t (write.sandwich " " [name] "")
  | ⟨.templateHead, name :: constraints :: heads⟩ => do
    write.sandwich "template<" heads "> typename "
    write.print name
    constraints.parts.forM fun c => write.sandwich " requires " [c] ""
  | ⟨.packHead, [head]⟩ => withWaiting [n] do
    match head with
    | ⟨.valueHead, [t, _]⟩ => write.print t
    | _ => write.print head
    if ← isWaiting then put "..."
  | _ => return

def expressionPart (write : Writer) : Node → Write Unit
  | ⟨.functionParam 0, _⟩ => put "this"
  | ⟨.functionParam k, _⟩ => putNumbered ("\x7bparm#" ++ toString k ++ "\x7d")
  | ⟨.sizeofPack k, _⟩ => put (toString k)
  | ⟨.sizeofArgs, args⟩ => put (toString (argumentCount args))
  | ⟨.expansion, [pattern]⟩ => do
    write.operand pattern
    put "..."
  | ⟨.expansion, pattern :: _⟩ => write.print pattern
  | ⟨.pack _, items⟩ => write.commas items
  | ⟨.list, items⟩ => write.commas items
  | ⟨.literal text negative, [t]⟩ => write.literal t text negative
  | ⟨.stringLiteral, [t]⟩ => write.sandwich "\"<" [t] ">\""
  | ⟨.lambdaExpr, [⟨_, parts⟩]⟩ => do
    put "[]"
    write.lambdaTypes parts
    put "\x7b...\x7d"
  | ⟨.nullary, [op]⟩ => write.symbol op
  | ⟨.unary isSuffix isSizeof, [op, e]⟩ => write.unary isSuffix isSizeof op e
  | ⟨.binary, [op, left, right]⟩ => write.binary op left right
  | ⟨.trinary, [⟨.operator "[...]=", _⟩, first, last, value]⟩ => do
    write.sandwich "[" [first] " ... "
    write.sandwich "" [last] "]"
    write.designatedValue value
  | ⟨.trinary, [_, first, second, third]⟩ => do
    write.operand first
    put "?"
    write.operand second
    put " : "
    write.operand third
  | ⟨.fold isLeft, [op, e]⟩ => bracketed "(" ")" do
    if isLeft then
      put "..."
      write.symbol op
      write.operand e
    else
      write.operand e
      write.symbol op
      put "..."
  | ⟨.fold _, [op, first, second]⟩ => bracketed "(" ")" do
    write.operand first
    write.symbol op
    put "..."
    write.symbol op
    write.operand second
  | ⟨.allocation, [_, place, t, init]⟩ => do
    put "new "
    if !place.parts.isEmpty then
      write.operand place
      put " "
    write.print t
    init.parts.forM write.operand
  | ⟨.braces, es :: t⟩ => do
    t.forM write.print
    bracketed "\x7b" "\x7d" (write.print es)
  | ⟨.memberCast, [t, e]⟩ => do
    bracketed "(" ")" (write.print t)
    bracketed "(" ")" (write.print e)
  | ⟨.subobject here, [t, e]⟩ => do
    write.print e
    write.sandwich ".<" [t] (" at offset " ++ toString here ++ ">")
  | ⟨.requires, [params, requirements]⟩ => do
    put "requires"
    if !params.parts.isEmpty then
      put " "
      bracketed "(" ")" (write.commas params.parts)
    put " "
    bracketed "\x7b" " \x7d" (requirements.parts.forM write.print)
  | ⟨.exprRequirement isNoexcept, e :: t⟩ => do
    put " "
    if isNoexcept || !t.isEmpty then bracketed "\x7b" "\x7d" (write.print e) else write.print e
    if isNoexcept then put " noexcept"
    t.forM fun t => write.sandwich " -> " [t] ""
    put ";"
  | ⟨.typeRequirement, [t]⟩ => write.sandwich " typename " [t] ";"
  | ⟨.nestedRequirement, [e]⟩ => write.sandwich " requires " [e] ";"
  | _ => return

def declaration (write : Writer) (n : Node) : Write Unit :=
  match n with
  | ⟨.typed, [name, type]⟩ => withWaiting [n] do
    write.print type
    if ← isWaiting then
      put " "
      write.print name
  | ⟨.constrained, [n, c]⟩ => do
    write.print n
    write.sandwich " requires " [c] ""
  | ⟨.enableIf, n :: args⟩ => do
    write.print n
    write.sandwich " [enable_if:" args "]"
  | ⟨.special text, [n]⟩ => write.sandwich text [n] ""
  | ⟨.construction, [base, derived]⟩ => do
    write.sandwich "construction vtable for " [base] "-in-"
    write.print derived
  | ⟨.clone tag, [n]⟩ => write.sandwich "" [n] (" [clone " ++ tag ++ "]")
  | _ => return

def part (write : Writer) (n : Node) : Write Unit :=
  match n.form with
  | .name _ | .headName _ | .operator _ | .unnamed _ | .qualified _ | .template | .tagged | .structor _ | .cast | .defaultArg _
  | .friend | .bindings | .closure _ | .module _ | .ofModule => write.namePart n
  | .typed | .constrained | .enableIf | .special _ | .construction | .clone _ => write.declaration n
  | .functionParam _ | .sizeofPack _ | .sizeofArgs | .expansion | .pack _ | .list | .literal _ _ | .stringLiteral
  | .lambdaExpr | .nullary | .unary _ _ | .binary | .trinary | .fold _
  | .allocation | .braces | .memberCast | .subobject _ | .requires | .exprRequirement _ | .typeRequirement
  | .nestedRequirement => write.expressionPart n
  | _ => write.typePart n

def turn (write : Writer) : Writer
  | .whole n => write.part n
  | .around n => write.around n

end Writer

def writer : Nat → Writer
  | 0, _ => return
  | depth + 1, job => (writer depth).turn job

def Node.text (depth : Nat) (n : Node) : String :=
  String.ofList ((writer depth).print n |>.run {}).2.text.reverse

end CallFusion.Symbol.Itanium
