import CallFusion.Ir.Parser.Metadata

/-! Reading attributes, calls, instructions and terminators. -/
namespace CallFusion.Ir.Read

def numberedConventions : List (Nat × String) :=
  [(0, "ccc"), (1, "ccc"), (8, "fastcc"), (9, "coldcc"), (10, "ghccc"), (12, "webkit_jscc"), (13, "anyregcc"),
    (14, "preserve_mostcc"), (15, "preserve_allcc"), (16, "swiftcc"), (17, "cxx_fast_tlscc"), (18, "tailcc"),
    (19, "cfguard_checkcc"), (20, "swifttailcc"), (64, "x86_stdcallcc"), (65, "x86_fastcallcc"),
    (66, "arm_apcscc"), (67, "arm_aapcscc"), (68, "arm_aapcs_vfpcc"), (69, "msp430_intrcc"),
    (70, "x86_thiscallcc"), (71, "ptx_kernel"), (72, "ptx_device"), (75, "spir_func"), (76, "spir_kernel"),
    (77, "intel_ocl_bicc"), (78, "x86_64_sysvcc"), (79, "win64cc"), (80, "x86_vectorcallcc"), (81, "hhvmcc"),
    (82, "hhvm_ccc"), (83, "x86_intrcc"), (84, "avr_intrcc"), (85, "avr_signalcc"), (87, "amdgpu_vs"),
    (88, "amdgpu_gs"), (89, "amdgpu_ps"), (90, "amdgpu_cs"), (91, "amdgpu_kernel"), (92, "x86_regcallcc"),
    (93, "amdgpu_hs"), (95, "amdgpu_ls"), (96, "amdgpu_es"), (97, "aarch64_vector_pcs"),
    (98, "aarch64_sve_vector_pcs"), (100, "amdgpu_gfx")]

/-- The convention of a number, of which sixteen bits are kept. Only a number that is zero itself stands for
the first convention. -/
def conventionText (n : Nat) : String :=
  let kept := n % 0x10000
  if n ≠ 0 && kept = 0 then ""
  else ((numberedConventions.find? (·.1 == kept)).map (·.2)).getD ("cc " ++ toString kept)

def convention : Read String := do
  if ← acceptWord "cc" then
    return conventionText (← natural)
  acceptOpt conventionWords

def resultWords : List String := ["inreg", "noalias", "nonnull", "noundef", "signext", "zeroext"]

def resultAttr? : Read (Option String) := do
  match ← peek with
  | some (.word w) =>
    if resultWords.contains w then
      advance
      return some w
    else if w == "dereferenceable" || w == "dereferenceable_or_null" then
      advance
      return some (w ++ "(" ++ toString (← parenthesizedNatural) ++ ")")
    else return none
  | _ => return none

def functionWords : List String :=
  ["alwaysinline", "argmemonly", "builtin", "cold", "convergent", "disable_sanitizer_instrumentation", "hot",
    "inaccessiblemem_or_argmemonly", "inaccessiblememonly", "inlinehint", "jumptable", "minsize", "mustprogress",
    "naked", "nobuiltin", "nocallback", "nocf_check", "noduplicate", "nofree", "noimplicitfloat", "noinline",
    "nomerge", "nonlazybind", "noprofile", "norecurse", "noredzone", "noreturn", "nosanitize_coverage", "nosync",
    "nounwind", "null_pointer_is_valid", "optforfuzzing", "optnone", "optsize", "readnone", "readonly",
    "returns_twice", "safestack", "sanitize_address", "sanitize_hwaddress", "sanitize_memory", "sanitize_memtag",
    "sanitize_thread", "shadowcallstack", "speculatable", "speculative_load_hardening", "ssp", "sspreq",
    "sspstrong", "strictfp", "uwtable", "willreturn", "writeonly"]

def numbersAttr (w : String) : Read String := do
  expectMark '('
  let first ← natural
  let second ← if ← acceptMark ',' then pure [← natural] else pure []
  expectMark ')'
  return w ++ "(" ++ ", ".intercalate ((first :: second).map toString) ++ ")"

def functionAttr? (grouped : Bool) : Read (Option String) := do
  match ← peek with
  | some (.string bs) => advance; return some (← stringAttr bs)
  | some (.attrGroup n) => advance; return some ("#" ++ toString n)
  | some (.word "align") =>
    if (← peek2) == some (.mark '=') then
      advance
      advance
      return some ((if grouped then "align = " else "align ") ++ toString (← natural))
    else return none
  | some (.word "alignstack") =>
    advance
    let n ← if ← acceptMark '=' then natural else parenthesizedNatural
    return some (if grouped then "alignstack = " ++ toString n else "alignstack(" ++ toString n ++ ")")
  | some (.word "preallocated") =>
    advance
    expectMark '('
    let t ← type
    expectMark ')'
    return some ("preallocated(" ++ t.text ++ ")")
  | some (.word w) =>
    if w == "allocsize" || w == "vscale_range" then
      advance
      return some (← numbersAttr w)
    else if functionWords.contains w then
      advance
      return some w
    else return none
  | _ => return none

def resultAttrs : Read (List String) := do many resultAttr? (← remaining)

def functionAttrs : Read (List String) := do many (functionAttr? false) (← remaining)

def debugArgument : Read (Argument Value) := do
  match ← peek with
  | some (.nodeKind "DIArgList") =>
    advance
    expectMark '('
    return .debugList (← itemsUntil ')' typedValue (← remaining))
  | some (.nodeKind _) | some (.metaRef _) | some (.mark '!') => return .debugNode (← metadata)
  | _ => return .debugValue (← typedValue)

def argument : Read (Argument Value × Ty) := do
  let t ← type
  match t with
  | .metadata => return (← debugArgument, t)
  | _ =>
    let attrs ← paramAttrs
    return (.value attrs (← value t), t)

/-- Arguments up to the closing parenthesis; dots at their end say nothing more. -/
def arguments : Nat → Read (List (Argument Value × Ty))
  | 0 => unexpected
  | n + 1 => do
    if ← acceptMark ')' then return []
    if ← accept .ellipsis then
      expectMark ')'
      return []
    let a ← argument
    if ← acceptMark ',' then
      if (← peek) == some (.mark ')') then unexpected
      return a :: (← arguments n)
    expectMark ')'
    return [a]

def bundle : Read (Bundle Value) := do
  let tag ← stringLiteral
  expectMark '('
  return ⟨tag, ← itemsUntil ')' typedValue (← remaining)⟩

def bundles : Read (List (Bundle Value)) := do
  if ← acceptMark '[' then nonEmpty (← itemsUntil ']' bundle (← remaining)) else return []

def calleeType (t : Ty) (args : List Ty) (space : Nat) : Ty :=
  match t.unalias with
  | .func _ _ _ => .pointer t space
  | _ => .pointer (.func t args false) space

/-- A value read a second time, from the place `start` on, now that its type is known. -/
def reread (start : Cursor) (t : Ty) : Read Value := do
  let after ← get
  set { start with mention := after.mention }
  let v ← value t
  modify fun c => { after with mention := c.mention }
  return v

def call (fast : List String) : Read (Call Value × Ty) := do
  let cc ← convention
  let results ← resultAttrs
  let space ← if ← acceptWord "addrspace" then parenthesizedNatural else pure 0
  let t ← type
  let start ← get
  -- the arguments, which come later, have a say in the type of the callee
  let _ ← withReader (fun s => { s with trusting := true }) (value (calleeType t [] space))
  expectMark '('
  let args ← arguments (← remaining)
  let callee ← reread start (calleeType t (args.map (·.2)) space)
  let attrs ← functionAttrs
  let bs ← bundles
  let result := match t.unalias with
    | .func r _ _ => r
    | _ => t
  return ({ fast := fast, convention := cc, resultAttrs := results, space := space, callee := callee,
            args := args.map (·.1), attrs := attrs, bundles := bs }, result)

def orderings : List String := ["unordered", "monotonic", "acquire", "release", "acq_rel", "seq_cst"]

def ordering : Read String := do
  match ← acceptAny orderings with
  | some o => return o
  | none => unexpected

def syncScope : Read String := do
  if ← acceptWord "syncscope" then
    expectMark '('
    let s ← stringLiteral
    expectMark ')'
    return Text.ofBytes s
  return ""

def alignClause : Read Nat := do if ← acceptClause "align" then natural else return 0

def comma : Read Unit := expectMark ','

def access : Read Access := do
  let atomic ← acceptWord "atomic"
  let volatile ← acceptWord "volatile"
  return { atomic := atomic, volatile := volatile }

def accessTail (a : Access) : Read Access := do
  if a.atomic then
    let scope ← syncScope
    let ord ← ordering
    return { a with scope := scope, ordering := ord, align := ← alignClause }
  return { a with align := ← alignClause }

def incoming (t : Ty) : Read (Value × Value) := do
  expectMark '['
  let v ← value t
  comma
  let b ← blockValue
  expectMark ']'
  return (v, b)

def clause? : Read (Option (Bool × Value)) := do
  if ← acceptWord "catch" then return some (false, ← typedValue)
  if ← acceptWord "filter" then return some (true, ← typedValue)
  return none

def padArgument : Read (Argument Value) := do
  let t ← type
  match t with
  | .metadata => debugArgument
  | _ => return .value [] (← value t)

def padArgs : Read (List (Argument Value)) := do
  expectMark '['
  itemsUntil ']' padArgument (← remaining)

def padScope : Read Value := do
  expectWord "within"
  if ← acceptWord "none" then return .noToken
  localValue

def rmwOps : List String :=
  ["xchg", "add", "sub", "and", "nand", "or", "xor", "max", "min", "umax", "umin", "fadd", "fsub"]

def indexOf (v : Value) : Nat × Ty :=
  match v with
  | .const _ c => (c.natural, c.type)
  | v => (0, v.type)

def startsType : Token → Bool
  | .word w => (keywordType? w).isSome
  | .localName _ | .mark '[' | .mark '\x7b' | .mark '<' => true
  | _ => false

def allocaFlags : List String := ["inalloca", "swifterror"]

def allocaTail (flags : List String) (elem : Ty) : Read (Operation Value × Ty) := do
  let count ← match ← peek, ← peek2 with
    | some (.mark ','), some t =>
      if startsType t then do
        advance
        pure (some (← typedValue))
      else pure none
    | _, _ => pure none
  let align ← alignClause
  let space ← if ← acceptClause "addrspace" then parenthesizedNatural else pure 0
  return (.alloca flags elem count align space, .pointer elem 0)

def operation (w : String) : Read (Operation Value × Ty) := do
  let fuel ← remaining
  match w with
  | "fneg" =>
    let flags ← acceptMany fastFlags 8
    let t ← type
    return (.fneg flags (← value t), t)
  | "icmp" | "fcmp" =>
    let floating := w == "fcmp"
    let flags ← if floating then acceptMany fastFlags 8 else pure []
    match ← acceptAny (if floating then floatPredicates else intPredicates) with
    | none => unexpected
    | some pred =>
      let t ← type
      let x ← value t
      comma
      return (.compare floating flags pred x (← value t), comparisonType t)
  | "alloca" =>
    let flags ← acceptInOrder allocaFlags
    allocaTail flags (← type)
  | "load" =>
    let a ← access
    let elem ← type
    comma
    let source ← typedValue
    return (.load (← accessTail a) elem source, elem)
  | "store" =>
    let a ← access
    let v ← typedValue
    comma
    let d ← typedValue
    return (.store (← accessTail a) v d, .void)
  | "fence" =>
    let scope ← syncScope
    return (.fence scope (← ordering), .void)
  | "cmpxchg" =>
    let flags ← acceptInOrder ["weak", "volatile"]
    let address ← typedValue
    comma
    let expected ← typedValue
    comma
    let t ← type
    let new ← value t
    let scope ← syncScope
    let success ← ordering
    let failure ← ordering
    let _ ← alignClause
    return (.cmpxchg flags address expected new scope success failure, .struct false [t, .int 1])
  | "atomicrmw" =>
    let volatile ← acceptWord "volatile"
    match ← acceptAny rmwOps with
    | none => unexpected
    | some op =>
      let pointer ← type
      let address ← value pointer
      comma
      let x ← typedValue
      let scope ← syncScope
      let ord ← ordering
      let _ ← alignClause
      match pointer.pointee? with
      | some elem => return (.atomicrmw volatile op address x scope ord, elem)
      | none => fail (.invalid "type")
  | "getelementptr" =>
    let inbounds ← acceptWord "inbounds"
    let elem ← type
    comma
    let sourceType ← type
    let source ← value sourceType
    let indices ← many (do
      match ← peek, ← peek2 with
      | some (.mark ','), some (.metaName _) => return none
      | some (.mark ','), _ => advance; return some (← typedValue)
      | _, _ => return none) fuel
    match addressType? (← read).table elem sourceType (indices.map indexOf) with
    | some t => return (.gep inbounds elem source indices, t)
    | none => fail (.invalid "index")
  | "extractelement" =>
    let t ← type
    let x ← value t
    comma
    let i ← typedValue
    match t.unalias with
    | .vector _ _ elem => return (.extractElement x i, elem)
    | _ => fail (.invalid "vector")
  | "insertelement" =>
    let t ← type
    let x ← value t
    comma
    let e ← typedValue
    comma
    return (.insertElement x e (← typedValue), t)
  | "shufflevector" =>
    let t ← type
    let x ← value t
    comma
    let y ← typedValue
    comma
    let maskType ← type
    let m ← value maskType
    match shuffleType? t maskType with
    | some type => return (.shuffleVector x y m, type)
    | none => fail (.invalid "vector")
  | "extractvalue" =>
    let t ← type
    let x ← value t
    let indices ← many (do
      match ← peek, ← peek2 with
      | some (.mark ','), some (.number _) => advance; return some (← natural)
      | _, _ => return none) fuel
    match elementType? (← read).table t indices with
    | some e => if indices.isEmpty then unexpected else return (.extractValue x indices, e)
    | none => fail (.invalid "index")
  | "insertvalue" =>
    let t ← type
    let x ← value t
    comma
    let e ← typedValue
    let indices ← many (do
      match ← peek, ← peek2 with
      | some (.mark ','), some (.number _) => advance; return some (← natural)
      | _, _ => return none) fuel
    if indices.isEmpty then unexpected
    return (.insertValue x e indices, t)
  | "phi" =>
    let flags ← acceptMany fastFlags 8
    let t ← type
    let first ← incoming t
    let rest ← many (do
      match ← peek, ← peek2 with
      | some (.mark ','), some (.mark '[') => advance; return some (← incoming t)
      | _, _ => return none) fuel
    return (.phi flags (first :: rest), t)
  | "select" =>
    let flags ← acceptMany fastFlags 8
    let c ← typedValue
    comma
    let t ← type
    let x ← value t
    comma
    return (.select flags c x (← typedValue), t)
  | "freeze" =>
    let t ← type
    return (.freeze (← value t), t)
  | "va_arg" =>
    let x ← typedValue
    comma
    let t ← type
    return (.vaArg x t, t)
  | "call" =>
    let (c, t) ← call (← acceptMany fastFlags 8)
    return (.call "" c, t)
  | "tail" | "musttail" | "notail" =>
    expectWord "call"
    let (c, t) ← call (← acceptMany fastFlags 8)
    return (.call w c, t)
  | "landingpad" =>
    let t ← type
    let cleanup ← acceptWord "cleanup"
    return (.landingPad cleanup (← many clause? fuel), t)
  | "catchpad" =>
    expectWord "within"
    let s ← localValue
    return (.catchPad s (← padArgs), .token)
  | "cleanuppad" =>
    let s ← padScope
    return (.cleanupPad s (← padArgs), .token)
  | _ =>
    match castOp? w, binaryOp? w with
    | some op, _ =>
      let x ← typedValue
      expectWord "to"
      let t ← type
      return (.cast op x t, t)
    | _, some op =>
      let flags ← acceptMany (arithmeticFlags op) 8
      let t ← type
      let x ← value t
      comma
      return (.binary op flags x (← value t), t)
    | _, _ => fail (.unexpected (some (.word w)))

def terminatorWords : List String :=
  ["ret", "br", "switch", "indirectbr", "invoke", "callbr", "resume", "catchswitch", "catchret", "cleanupret",
    "unreachable"]

def unwindTarget : Read (Option Value) := do
  expectWord "unwind"
  if ← acceptWord "to" then
    expectWord "caller"
    return none
  return some (← labelValue)

def switchCases : Nat → Read (List (Value × Value))
  | 0 => unexpected
  | n + 1 => do
    if ← acceptMark ']' then return []
    let t ← type
    let c ← constant t
    let v := Value.const (← mentionOf c) c
    comma
    let l ← labelValue
    return (v, l) :: (← switchCases n)

def terminator (w : String) : Read (Terminator Value × Ty) := do
  let fuel ← remaining
  match w with
  | "ret" =>
    let t ← type
    match t with
    | .void => return (.ret none, .void)
    | _ => return (.ret (some (← value t)), .void)
  | "br" =>
    if (← peek) == some (.word "label") then return (.br (← labelValue), .void)
    match ← peek with
    | some (.word w) => if (intWidth? w).isNone then unexpected
    | _ => unexpected
    let c ← value (← baseAt 1)
    comma
    let y ← labelValue
    comma
    return (.condBr c y (← labelValue), .void)
  | "switch" =>
    let x ← typedValue
    comma
    let d ← labelValue
    expectMark '['
    return (.switch x d (← switchCases fuel), .void)
  | "indirectbr" =>
    let a ← typedValue
    comma
    expectMark '['
    return (.indirectBr a (← itemsUntil ']' labelValue fuel), .void)
  | "invoke" =>
    let (c, t) ← call []
    expectWord "to"
    let n ← labelValue
    expectWord "unwind"
    return (.invoke c n (← labelValue), t)
  | "callbr" =>
    let (c, t) ← call []
    expectWord "to"
    let n ← labelValue
    expectMark '['
    return (.callBr c n (← itemsUntil ']' labelValue fuel), t)
  | "resume" => return (.resume (← typedValue), .void)
  | "catchswitch" =>
    let s ← padScope
    expectMark '['
    let hs ← itemsUntil ']' labelValue fuel
    return (.catchSwitch s hs (← unwindTarget), .token)
  | "catchret" =>
    expectWord "from"
    let p ← value .token
    expectWord "to"
    return (.catchRet p (← labelValue), .void)
  | "cleanupret" =>
    expectWord "from"
    let p ← value .token
    return (.cleanupRet p (← unwindTarget), .void)
  | "unreachable" => return (.unreachable, .void)
  | _ => fail (.unexpected (some (.word w)))

end CallFusion.Ir.Read
