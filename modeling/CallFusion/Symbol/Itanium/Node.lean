/-!
Components of C++ symbols. A component is a form, which says what it is, and the components it is
made of, so one walk serves every kind of name, type and expression.
-/
namespace CallFusion.Symbol.Itanium

/-- What a component is, apart from its parts. -/
inductive Form where
  | name (text : String)
  | builtin (text : String)
  | operator (text : String)
  | functionParam (index : Nat)
  | unnamed (index : Nat)
  | autoParam (index : Nat)
  | sizeofPack (count : Nat)
  | binaryFloat (bits : Nat)
  | headName (text : String)
  /-- The argument it stands for, or nothing while that is not known. -/
  | param (index : Nat)
  | qualified (isLocal : Bool)
  | template
  | tagged
  /-- Class name, and the base class of an inherited constructor. -/
  | structor (destroys : Bool)
  | cast
  | typed
  /-- Result type if there is one, then parameter types. -/
  | function (hasResult isLocal : Bool)
  | qualifier (text : String)
  | qualifiedType
  /-- Function type or name, then qualifiers. A function type with a `cell` shares its qualifiers with
  all that refers to it. -/
  | method (ref : String) (cell : Option Nat)
  | pointer
  | reference
  | rvalue
  /-- Reference type to which this is a reference; `id` tells them apart. -/
  | doubled (isRvalue : Bool) (id : Nat)
  | suffixed (text : String)
  | vendor
  | array
  | vector
  | member
  | fixed (accumulates saturates : Bool)
  | bitInt (signed : Bool)
  | elaborated (kind : String)
  | transformed (text : String)
  | placeholder (text : String)
  | decltype
  | expansion
  /-- Arguments; `id` tells packs apart. -/
  | pack (id : Nat)
  | list
  | sizeofArgs
  | bindings
  | literal (text : String) (negative : Bool)
  | stringLiteral
  | lambdaExpr
  | nullary
  | unary (isSuffix isSizeof : Bool)
  | binary
  | trinary
  | fold (isLeft : Bool)
  /-- Placement list, type, and the list of initializers. -/
  | allocation
  | braces
  | memberCast
  | subobject (offset : Int)
  | defaultArg (index : Nat)
  | friend
  | explicitObject
  /-- Lists of template heads, their constraint, parameter types, and the call's constraint. -/
  | closure (index : Nat)
  | typeHead
  | constrainedHead
  | valueHead
  /-- Name, list of constraints, then heads. -/
  | templateHead
  | packHead
  | declaredArg
  /-- Part's own name, and the module it is part of. -/
  | module (isPartition : Bool)
  | ofModule
  | constrained
  | requires
  | exprRequirement (isNoexcept : Bool)
  | typeRequirement
  | nestedRequirement
  | enableIf
  | special (text : String)
  /-- Base, derived class. -/
  | construction
  | clone (tag : String)
  deriving DecidableEq, Repr

inductive Node where
  | mk (form : Form) (parts : List Node)

instance : Inhabited Node := ⟨.mk (.name "") []⟩

namespace Node

def form : Node → Form
  | mk form _ => form

def parts : Node → List Node
  | mk _ parts => parts

def leaf (form : Form) : Node := ⟨form, []⟩

def name (text : String) : Node := leaf (.name text)

def builtin (text : String) : Node := leaf (.builtin text)

def list (parts : List Node) : Node := ⟨.list, parts⟩

def lastName : Node → Node
  | ⟨.template, base :: _⟩ => base.lastName
  | ⟨.qualified _, [_, last]⟩ => last.lastName
  | ⟨.tagged, base :: _⟩ => base.lastName
  | n => n

def templateArgs? : Node → Option (List Node)
  | ⟨.template, _ :: args⟩ => some args
  | ⟨.qualified isLocal, [_, last]⟩ =>
    match isLocal, last.form with
    | true, _ => last.templateArgs?
    | _, .structor false => last.templateArgs?
    | _, _ => none
  | ⟨.method _ _, base :: _⟩ => base.templateArgs?
  | ⟨.structor false, [_, base]⟩ => base.templateArgs?
  | _ => none

/-- Constructors, destructors and conversions have no result type. -/
def isResultless : Node → Bool
  | ⟨.qualified _, [_, last]⟩ => last.isResultless
  | ⟨.structor _, _⟩ => true
  | ⟨.cast, _⟩ => true
  | _ => false

def hasResult : Node → Bool
  | ⟨.qualified true, [_, last]⟩ => last.hasResult
  | ⟨.template, base :: _⟩ => !base.isResultless
  | ⟨.qualifiedType, base :: _⟩ => base.hasResult
  | ⟨.method _ _, base :: _⟩ => base.hasResult
  | _ => false

def isReference : Node → Bool
  | ⟨.reference, _⟩ => true
  | ⟨.rvalue, _⟩ => true
  | ⟨.doubled _ _, _⟩ => true
  | _ => false

def isArray : Node → Bool
  | ⟨.array, _⟩ => true
  | ⟨.qualifiedType, ⟨.array, _⟩ :: _⟩ => true
  | _ => false

end Node

/-- Forms in which a walk for parameter packs does not look. -/
def Form.hidesPacks : Form → Bool
  | .expansion | .closure _ | .name _ | .tagged | .operator _ | .builtin _ | .functionParam _ | .unnamed _
  | .fixed _ _ | .defaultArg _ => true
  | _ => false

mutual
def Node.pack? : Node → Option Node
  | ⟨.param _, [⟨.pack id, items⟩]⟩ => some ⟨.pack id, items⟩
  | ⟨.param _, _⟩ => none
  | ⟨form, parts⟩ => if form.hidesPacks then none else firstPack? parts

def firstPack? : List Node → Option Node
  | [] => none
  | n :: ns => n.pack? <|> firstPack? ns
end

mutual
/-- Changes a component from its leaves up. What a parameter stands for and the pack of an expansion
are not parts that it walks. -/
def Node.everywhere (stop : Form → Bool) (step : Node → Node) : Node → Node
  | ⟨.param index, args⟩ => step ⟨.param index, args⟩
  | ⟨.expansion, pattern :: pack⟩ =>
    if stop .expansion then ⟨.expansion, pattern :: pack⟩
    else step ⟨.expansion, pattern.everywhere stop step :: pack⟩
  | ⟨form, parts⟩ => if stop form then ⟨form, parts⟩ else step ⟨form, everywhereIn stop step parts⟩

def everywhereIn (stop : Form → Bool) (step : Node → Node) : List Node → List Node
  | [] => []
  | n :: ns => n.everywhere stop step :: everywhereIn stop step ns
end

end CallFusion.Symbol.Itanium
