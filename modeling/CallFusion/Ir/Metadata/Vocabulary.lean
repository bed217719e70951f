/-!
Numbered vocabularies of debugging information: tags, encodings, languages and the like. A member
may be written by name or by number and is printed by name.
-/
namespace CallFusion.Ir

inductive Vocabulary where
  | tag
  | encoding
  | language
  | callingConvention
  | virtuality
  | macroKind
  | emissionKind
  | nameTableKind
  | checksumKind
  deriving DecidableEq, Repr, Inhabited

def tagCodes : List (Nat × String) :=
  [(0x0, "null"), (0x1, "array_type"), (0x2, "class_type"), (0x3, "entry_point"), (0x4, "enumeration_type"),
    (0x5, "formal_parameter"), (0x8, "imported_declaration"), (0xa, "label"), (0xb, "lexical_block"),
    (0xd, "member"), (0xf, "pointer_type"), (0x10, "reference_type"), (0x11, "compile_unit"),
    (0x12, "string_type"), (0x13, "structure_type"), (0x15, "subroutine_type"), (0x16, "typedef"),
    (0x17, "union_type"), (0x18, "unspecified_parameters"), (0x19, "variant"), (0x1a, "common_block"),
    (0x1b, "common_inclusion"), (0x1c, "inheritance"), (0x1d, "inlined_subroutine"), (0x1e, "module"),
    (0x1f, "ptr_to_member_type"), (0x20, "set_type"), (0x21, "subrange_type"), (0x22, "with_stmt"),
    (0x23, "access_declaration"), (0x24, "base_type"), (0x25, "catch_block"), (0x26, "const_type"),
    (0x27, "constant"), (0x28, "enumerator"), (0x29, "file_type"), (0x2a, "friend"), (0x2b, "namelist"),
    (0x2c, "namelist_item"), (0x2d, "packed_type"), (0x2e, "subprogram"), (0x2f, "template_type_parameter"),
    (0x30, "template_value_parameter"), (0x31, "thrown_type"), (0x32, "try_block"), (0x33, "variant_part"),
    (0x34, "variable"), (0x35, "volatile_type"), (0x36, "dwarf_procedure"), (0x37, "restrict_type"),
    (0x38, "interface_type"), (0x39, "namespace"), (0x3a, "imported_module"), (0x3b, "unspecified_type"),
    (0x3c, "partial_unit"), (0x3d, "imported_unit"), (0x3f, "condition"), (0x40, "shared_type"),
    (0x41, "type_unit"), (0x42, "rvalue_reference_type"), (0x43, "template_alias"), (0x44, "coarray_type"),
    (0x45, "generic_subrange"), (0x46, "dynamic_type"), (0x47, "atomic_type"), (0x48, "call_site"),
    (0x49, "call_site_parameter"), (0x4a, "skeleton_unit"), (0x4b, "immutable_type"), (0x4081, "MIPS_loop"),
    (0x4101, "format_label"), (0x4102, "function_template"), (0x4103, "class_template"),
    (0x4106, "GNU_template_template_param"), (0x4107, "GNU_template_parameter_pack"),
    (0x4108, "GNU_formal_parameter_pack"), (0x4109, "GNU_call_site"), (0x410a, "GNU_call_site_parameter"),
    (0x4200, "APPLE_property"), (0x6000, "LLVM_annotation"), (0xb000, "BORLAND_property"),
    (0xb001, "BORLAND_Delphi_string"), (0xb002, "BORLAND_Delphi_dynamic_array"),
    (0xb003, "BORLAND_Delphi_set"), (0xb004, "BORLAND_Delphi_variant")]

def encodingCodes : List (Nat × String) :=
  [(0x1, "address"), (0x2, "boolean"), (0x3, "complex_float"), (0x4, "float"), (0x5, "signed"),
    (0x6, "signed_char"), (0x7, "unsigned"), (0x8, "unsigned_char"), (0x9, "imaginary_float"),
    (0xa, "packed_decimal"), (0xb, "numeric_string"), (0xc, "edited"), (0xd, "signed_fixed"),
    (0xe, "unsigned_fixed"), (0xf, "decimal_float"), (0x10, "UTF"), (0x11, "UCS"), (0x12, "ASCII")]

def languageCodes : List (Nat × String) :=
  [(0x1, "C89"), (0x2, "C"), (0x3, "Ada83"), (0x4, "C_plus_plus"), (0x5, "Cobol74"), (0x6, "Cobol85"),
    (0x7, "Fortran77"), (0x8, "Fortran90"), (0x9, "Pascal83"), (0xa, "Modula2"), (0xb, "Java"), (0xc, "C99"),
    (0xd, "Ada95"), (0xe, "Fortran95"), (0xf, "PLI"), (0x10, "ObjC"), (0x11, "ObjC_plus_plus"), (0x12, "UPC"),
    (0x13, "D"), (0x14, "Python"), (0x15, "OpenCL"), (0x16, "Go"), (0x17, "Modula3"), (0x18, "Haskell"),
    (0x19, "C_plus_plus_03"), (0x1a, "C_plus_plus_11"), (0x1b, "OCaml"), (0x1c, "Rust"), (0x1d, "C11"),
    (0x1e, "Swift"), (0x1f, "Julia"), (0x20, "Dylan"), (0x21, "C_plus_plus_14"), (0x22, "Fortran03"),
    (0x23, "Fortran08"), (0x24, "RenderScript"), (0x25, "BLISS"), (0x8001, "Mips_Assembler"),
    (0x8e57, "GOOGLE_RenderScript"), (0xb000, "BORLAND_Delphi")]

def callingConventionCodes : List (Nat × String) :=
  [(0x1, "normal"), (0x2, "program"), (0x3, "nocall"), (0x4, "pass_by_reference"), (0x5, "pass_by_value"),
    (0x41, "GNU_borland_fastcall_i386"), (0xb0, "BORLAND_safecall"),
    (0xb1, "BORLAND_stdcall"), (0xb2, "BORLAND_pascal"), (0xb3, "BORLAND_msfastcall"),
    (0xb4, "BORLAND_msreturn"), (0xb5, "BORLAND_thiscall"), (0xb6, "BORLAND_fastcall"),
    (0xc0, "LLVM_vectorcall")]

namespace Vocabulary

def opening : Vocabulary → String
  | tag => "DW_TAG_"
  | encoding => "DW_ATE_"
  | language => "DW_LANG_"
  | callingConvention => "DW_CC_"
  | virtuality => "DW_VIRTUALITY_"
  | macroKind => "DW_MACINFO_"
  | checksumKind => "CSK_"
  | emissionKind | nameTableKind => ""

def codes : Vocabulary → List (Nat × String)
  | tag => tagCodes
  | encoding => encodingCodes
  | language => languageCodes
  | callingConvention => callingConventionCodes
  | virtuality => [(0x0, "none"), (0x1, "virtual"), (0x2, "pure_virtual")]
  | macroKind => [(0x1, "define"), (0x2, "undef"), (0x3, "start_file"), (0x4, "end_file"), (0xff, "vendor_ext")]
  | emissionKind => [(0, "NoDebug"), (1, "FullDebug"), (2, "LineTablesOnly"), (3, "DebugDirectivesOnly")]
  | nameTableKind => [(0, "Default"), (1, "GNU"), (2, "None")]
  | checksumKind => [(1, "MD5"), (2, "SHA1"), (3, "SHA256")]

def unnamed (v : Vocabulary) (n : Nat) : String :=
  let numbered (kind : String) := kind ++ "(" ++ toString n ++ ")"
  match v with
  | tag => toString n
  | encoding => numbered "DwarfAttEncoding"
  | language => numbered "DwarfLang"
  | callingConvention => numbered "DwarfCC"
  | virtuality => numbered "DwarfVirtuality"
  | macroKind => numbered "DwarfMacinfo"
  | emissionKind => numbered "EmissionKind"
  | nameTableKind => numbered "NameTableKind"
  | checksumKind => numbered "ChecksumKind"

def name (v : Vocabulary) (n : Nat) : String :=
  match v.codes.find? (·.1 == n) with
  | some (_, s) => v.opening ++ s
  | none => v.unnamed n

def admits (v : Vocabulary) (w : String) : Bool :=
  if v.opening.isEmpty then v.codes.any (·.2 == w) else w.startsWith v.opening

def isZero (v : Vocabulary) (w : String) : Bool := w == v.name 0

end Vocabulary

def declarationFlags : List (Nat × String) :=
  [(0x1, "Private"), (0x2, "Protected"), (0x3, "Public"), (0x4, "FwdDecl"), (0x8, "AppleBlock"),
    (0x10, "ReservedBit4"), (0x20, "Virtual"), (0x40, "Artificial"), (0x80, "Explicit"), (0x100, "Prototyped"),
    (0x200, "ObjcClassComplete"), (0x400, "ObjectPointer"), (0x800, "Vector"), (0x1000, "StaticMember"),
    (0x2000, "LValueReference"), (0x4000, "RValueReference"), (0x8000, "ExportSymbols"),
    (0x10000, "SingleInheritance"), (0x20000, "MultipleInheritance"), (0x30000, "VirtualInheritance"),
    (0x40000, "IntroducedVirtual"), (0x80000, "BitField"), (0x100000, "NoReturn"),
    (0x400000, "TypePassByValue"), (0x800000, "TypePassByReference"), (0x1000000, "EnumClass"),
    (0x2000000, "Thunk"), (0x4000000, "NonTrivial"), (0x8000000, "BigEndian"), (0x10000000, "LittleEndian"),
    (0x20000000, "AllCallsDescribed"), (0x24, "IndirectVirtualBase")]

def subprogramFlags : List (Nat × String) :=
  [(0x1, "Virtual"), (0x2, "PureVirtual"), (0x4, "LocalToUnit"), (0x8, "Definition"), (0x10, "Optimized"),
    (0x20, "Pure"), (0x40, "Elemental"), (0x80, "Recursive"), (0x100, "MainSubprogram"), (0x200, "Deleted"),
    (0x800, "ObjCDirect"), (0x3, "Virtuality")]

def flagName (opening : String) (flags : List (Nat × String)) (bits : Nat) : String :=
  match flags.find? (·.1 == bits) with
  | some (_, s) => opening ++ s
  | none => opening ++ "(" ++ toString bits ++ ")"

def setBits (first last n : Nat) : List Nat :=
  ((List.range last).drop first).filterMap fun i => if n.testBit i then some (Nat.pow 2 i) else none

/-- Names of the set flags in increasing order. The lowest two bits are one flag together, and bits above
the last flag are not shown. -/
def declarationFlagNames (n : Nat) : List String :=
  ((if n % 4 = 0 then [] else [n % 4]) ++ setBits 2 30 n).map (flagName "DIFlag" declarationFlags)

def subprogramFlagNames (n : Nat) : List String :=
  (setBits 0 9 n).map (flagName "DISPFlag" subprogramFlags)

def flagBits? (opening : String) (flags : List (Nat × String)) (w : String) : Option Nat :=
  if w == opening ++ "Zero" then some 0
  else (flags.find? fun f => opening ++ f.2 == w).map (·.1)

end CallFusion.Ir
