import CallFusion.Ir.Type

/-!
Sizes and alignments under a 64-bit data layout, in 64-bit words that wrap. Types that contain an
opaque structure have no size, and neither has a type that contains itself.
-/
namespace CallFusion.Ir

/-- What is known of a type's storage. `endless` marks a computation that never arrives at a size. -/
inductive Extent where
  | sized (size align : UInt64)
  | unsized
  | endless
  deriving DecidableEq, Repr, Inhabited

namespace Extent

def isSized : Extent → Bool
  | sized _ _ => true
  | _ => false

def size? : Extent → Option UInt64
  | sized size _ => some size
  | _ => none

end Extent

def alignTo (n a : UInt64) : UInt64 := if a ≤ 1 then n else (n + a - 1) / a * a

/-- The least power of two that is at least `n`; there is none in 64 bits above `2 ^ 63`. -/
def powerAbove? (n : UInt64) : Option UInt64 :=
  (List.range 64).findSome? fun k =>
    let p := (1 : UInt64) <<< k.toUInt64
    if p < n then none else some p

def powerExtent (n limit : UInt64) : Extent :=
  match powerAbove? n with
  | some size => .sized size (min size limit)
  | none => .endless

def FloatKind.size : FloatKind → UInt64
  | half => 2
  | float => 4
  | double => 8
  | fp128 | x86fp80 | ppcfp128 => 16

theorem TypeTable.length_without {table : TypeTable} {name : String} {body : TypeBody}
    (found : table.find? name = some body) : (table.without name).length < table.length := by
  unfold TypeTable.find? at found
  obtain ⟨d, present, _⟩ := Option.map_eq_some_iff.mp found
  apply List.length_filter_lt_length_iff_exists.mpr
  refine ⟨d, List.mem_of_find?_eq_some present, ?_⟩
  have := List.find?_some present
  simp_all

mutual
/-- Size and alignment of a type. A name that is met again inside its own definition is no longer
in the table. -/
def extent (table : TypeTable) (t : Ty) : Extent :=
  match t with
  | .int bits => powerExtent ((bits + 7) / 8) 8
  | .float kind => .sized kind.size kind.size
  | .pointer _ _ => .sized 8 8
  | .array length elem =>
    match extent table elem with
    | .sized size align => .sized (alignTo size align * length) align
    | e => e
  | .vector _ length elem =>
    match extent table elem with
    | .sized size _ => powerExtent (size * length) 16
    | e => e
  | .struct packed fields => fieldsExtent table packed fields 0 1
  | .synonym _ body => extent table body
  | .named name =>
    match _found : table.find? name with
    | some (.is body) => extent (table.without name) body
    | some .opaqueStruct => .unsized
    | none => .endless
  | .void | .label | .token | .metadata | .mmx | .func _ _ _ | .unset => .unsized
termination_by (table.length, sizeOf t)
decreasing_by
  all_goals simp_wf
  all_goals first
    | exact Prod.Lex.left _ _ (TypeTable.length_without _found)
    | (apply Prod.Lex.right; omega)

def fieldsExtent (table : TypeTable) (packed : Bool) (fields : List Ty) (offset align : UInt64) : Extent :=
  match fields with
  | [] => .sized (alignTo offset align) align
  | f :: fs =>
    match extent table f with
    | .sized size own =>
      let own := if packed then 1 else own
      fieldsExtent table packed fs (alignTo offset own + size) (max align own)
    | e => e
termination_by (table.length, sizeOf fields)
decreasing_by
  all_goals simp_wf
  all_goals (apply Prod.Lex.right; omega)
end

end CallFusion.Ir
