import CallFusion.Ir.Name

/-!
Types of the typed-pointer IR and the table of type definitions. A named structure is held by its
name and looked up in the table, so recursive definitions need no cycle; a name for any other type
carries the type it stands for.
-/
namespace CallFusion.Ir

inductive FloatKind where
  | half
  | float
  | double
  | fp128
  | x86fp80
  | ppcfp128
  deriving DecidableEq, Repr, Inhabited

def FloatKind.text : FloatKind → String
  | half => "half"
  | float => "float"
  | double => "double"
  | fp128 => "fp128"
  | x86fp80 => "x86_fp80"
  | ppcfp128 => "ppc_fp128"

def FloatKind.all : List FloatKind := [half, float, double, fp128, x86fp80, ppcfp128]

inductive Ty where
  | void
  | label
  | token
  | metadata
  | mmx
  | int (bits : UInt64)
  | float (kind : FloatKind)
  | pointer (elem : Ty) (space : Nat)
  | array (length : UInt64) (elem : Ty)
  | vector (scalable : Bool) (length : UInt64) (elem : Ty)
  | struct (packed : Bool) (fields : List Ty)
  | func (result : Ty) (params : List Ty) (variadic : Bool)
  | named (name : String)
  | synonym (name : String) (body : Ty)
  /-- The missing part of a type that a definition only names. -/
  | unset
  deriving Repr, Inhabited

namespace Ty

/-- The name of a type. Numbers and names of types are not told apart, so a number needs no quotes. -/
def typeNameText (name : String) : String := "%" ++ encodeName name

def spaceText (space : Nat) : String :=
  if space = 0 then "" else " addrspace(" ++ toString space ++ ")"

def structText (packed : Bool) (fields : List String) : String :=
  let body := if fields.isEmpty then "\x7b\x7d" else "\x7b " ++ ", ".intercalate fields ++ " \x7d"
  if packed then "<" ++ body ++ ">" else body

def paramsText (params : List String) (variadic : Bool) : String :=
  ", ".intercalate (params ++ if variadic then ["..."] else [])

mutual
def text : Ty → String
  | void => "void"
  | label => "label"
  | token => "token"
  | metadata => "metadata"
  | mmx => "x86_mmx"
  | int bits => "i" ++ toString bits
  | float kind => kind.text
  | pointer elem space => text elem ++ spaceText space ++ "*"
  | array length elem => "[" ++ toString length ++ " x " ++ text elem ++ "]"
  | vector scalable length elem =>
    "<" ++ (if scalable then "vscale x " else "") ++ toString length ++ " x " ++ text elem ++ ">"
  | struct packed fields => structText packed (texts fields)
  | func result params variadic => text result ++ " (" ++ paramsText (texts params) variadic ++ ")"
  | named name => typeNameText name
  | synonym name _ => typeNameText name
  | unset => "%!s(<nil>)"

def texts : List Ty → List String
  | [] => []
  | t :: ts => text t :: texts ts
end

def bytePointer : Ty := pointer (int 8) 0

def unalias : Ty → Ty
  | synonym _ body => unalias body
  | t => t

def isPointer (t : Ty) : Bool :=
  match t.unalias with
  | pointer _ _ => true
  | _ => false

def isVoid (t : Ty) : Bool :=
  match t.unalias with
  | void => true
  | _ => false

def isStruct : Ty → Bool
  | struct _ _ => true
  | _ => false

def isArray (t : Ty) : Bool :=
  match t.unalias with
  | array _ _ => true
  | _ => false

def isVector (t : Ty) : Bool :=
  match t.unalias with
  | vector _ _ _ => true
  | _ => false

def isTruth (t : Ty) : Bool :=
  match t.unalias with
  | int bits => bits == 1
  | _ => false

def isToken (t : Ty) : Bool :=
  match t.unalias with
  | token => true
  | _ => false

def pointee? (t : Ty) : Option Ty :=
  match t.unalias with
  | pointer elem _ => some elem
  | _ => none

mutual
/-- The form that decides equality: names of types are looked through, except in and of pointers,
which are told apart by how they are written, and of structures, which are told apart by name. -/
def canonical : Ty → Ty
  | array length elem => array length (canonical elem)
  | vector scalable length elem => vector scalable length (canonical elem)
  | struct packed fields => struct packed (canonicals fields)
  | func result params variadic => func (canonical result) (canonicals params) variadic
  | synonym name body =>
    if body.isPointer then synonym name body else if body.isStruct then named name else canonical body
  | t => t

def canonicals : List Ty → List Ty
  | [] => []
  | t :: ts => canonical t :: canonicals ts
end

mutual
def expand (lookup : String → Ty) : Ty → Ty
  | pointer elem space => pointer (expand lookup elem) space
  | array length elem => array length (expand lookup elem)
  | vector scalable length elem => vector scalable length (expand lookup elem)
  | struct packed fields => struct packed (expandAll lookup fields)
  | func result params variadic => func (expand lookup result) (expandAll lookup params) variadic
  | named name => lookup name
  | t => t

def expandAll (lookup : String → Ty) : List Ty → List Ty
  | [] => []
  | t :: ts => expand lookup t :: expandAll lookup ts
end

/-- What a second name for a type stands for: a type of the same kind in which nothing is filled in. -/
def outline : Ty → Ty
  | int _ => int 0
  | float _ => float .half
  | pointer _ _ => pointer unset 0
  | array _ _ => array 0 unset
  | vector _ _ _ => vector false 0 unset
  | struct _ _ => struct false []
  | func _ _ _ => func unset [] false
  | t => t

def same (a b : Ty) : Bool := a.canonical.text == b.canonical.text

end Ty

inductive TypeBody where
  | opaqueStruct
  | is (type : Ty)
  deriving Repr, Inhabited

/-- A type definition. A second name for a type is printed under the name of that type. -/
structure TypeDef where
  name : String
  body : TypeBody
  shown : String := name
  deriving Repr, Inhabited

abbrev TypeTable := List TypeDef

namespace TypeTable

def find? (table : TypeTable) (name : String) : Option TypeBody :=
  (List.find? (fun d => d.name == name) table).map (·.body)

def without (table : TypeTable) (name : String) : TypeTable :=
  List.filter (fun d => d.name != name) table

end TypeTable

end CallFusion.Ir
