import CallFusion.Ir.Metadata.Schema

/-!
The words of textual IR. A run of name characters is read as the longest word that it starts with, so
the whole list matters: a shorter or missing word changes how its neighbours are cut.
-/
namespace CallFusion.Ir

def structureWords : List String :=
  ["alias", "any", "asm", "attributes", "blockaddress", "c", "cc", "comdat", "constant", "datalayout",
    "declare", "define", "distinct", "exactmatch", "from", "gc", "global", "ifunc", "largest", "module",
    "nodeduplicate", "none", "null", "opaque", "partition", "personality", "prefix", "prologue", "samesize",
    "section", "source_filename", "target", "to", "triple", "type", "undef", "unwind", "uselistorder",
    "uselistorder_bb", "within", "x", "zeroinitializer", "poison", "dso_local_equivalent", "no_cfi", "inrange",
    "true", "false", "caller", "label", "syncscope", "vscale"]

def linkageWords : List String :=
  ["addrspace", "appending", "available_externally", "common", "default", "dllexport", "dllimport",
    "dso_local", "dso_preemptable", "extern_weak", "external", "externally_initialized", "hidden",
    "initialexec", "internal", "linkonce", "linkonce_odr", "local_unnamed_addr", "localdynamic", "localexec",
    "private", "protected", "thread_local", "unnamed_addr", "weak", "weak_odr"]

def typeWords : List String :=
  ["double", "float", "fp128", "half", "metadata", "ppc_fp128", "token", "void", "x86_fp80", "x86_mmx"]

def strangeWords : List String :=
  ["bfloat", "hasUnknownCall", "mayThrow", "mustBeUnreachable", "noUnwind", "param", "params", "ptr", "singlethread",
    "vcall_visibility", "visibility", "x86_amx"]

def conventionWords : List String :=
  ["aarch64_sve_vector_pcs", "aarch64_vector_pcs", "amdgpu_cs", "amdgpu_es", "amdgpu_gfx", "amdgpu_gs",
    "amdgpu_hs", "amdgpu_kernel", "amdgpu_ls", "amdgpu_ps", "amdgpu_vs", "anyregcc", "arm_aapcs_vfpcc",
    "arm_aapcscc", "arm_apcscc", "avr_intrcc", "avr_signalcc", "ccc", "cfguard_checkcc", "coldcc",
    "cxx_fast_tlscc", "fastcc", "ghccc", "hhvm_ccc", "hhvmcc", "intel_ocl_bicc", "msp430_intrcc",
    "preserve_allcc", "preserve_mostcc", "ptx_device", "ptx_kernel", "spir_func", "spir_kernel", "swiftcc",
    "swifttailcc", "tailcc", "webkit_jscc", "win64cc", "x86_64_sysvcc", "x86_fastcallcc", "x86_intrcc",
    "x86_regcallcc", "x86_stdcallcc", "x86_thiscallcc", "x86_vectorcallcc"]

def attributeWords : List String :=
  ["align", "alignstack", "allocsize", "alwaysinline", "argmemonly", "builtin", "byref", "byval", "cold",
    "convergent", "dereferenceable", "dereferenceable_or_null", "disable_sanitizer_instrumentation",
    "elementtype", "hot", "immarg", "inaccessiblemem_or_argmemonly", "inaccessiblememonly", "inalloca",
    "inlinehint", "inreg", "jumptable", "minsize", "mustprogress", "naked", "nest", "noalias", "nobuiltin",
    "nocallback", "nocapture", "nocf_check", "noduplicate", "nofree", "noimplicitfloat", "noinline", "nomerge",
    "nonlazybind", "nonnull", "noprofile", "norecurse", "noredzone", "noreturn", "nosanitize_coverage",
    "nosync", "noundef", "nounwind", "null_pointer_is_valid", "optforfuzzing", "optnone", "optsize",
    "preallocated", "readnone", "readonly", "returned", "returns_twice", "safestack", "sanitize_address",
    "sanitize_hwaddress", "sanitize_memory", "sanitize_memtag", "sanitize_thread", "shadowcallstack",
    "signext", "speculatable", "speculative_load_hardening", "sret", "ssp", "sspreq", "sspstrong", "strictfp",
    "swiftasync", "swifterror", "swiftself", "uwtable", "vscale_range", "willreturn", "writeonly", "zeroext"]

def operationWords : List String :=
  ["add", "addrspacecast", "alloca", "and", "ashr", "atomicrmw", "bitcast", "br", "call", "callbr", "catch",
    "catchpad", "catchret", "catchswitch", "cleanup", "cleanuppad", "cleanupret", "cmpxchg", "extractelement",
    "extractvalue", "fadd", "fcmp", "fdiv", "fence", "filter", "fmul", "fneg", "fpext", "fptosi", "fptoui",
    "fptrunc", "freeze", "frem", "fsub", "getelementptr", "icmp", "indirectbr", "insertelement", "insertvalue",
    "inttoptr", "invoke", "landingpad", "load", "lshr", "mul", "or", "phi", "ptrtoint", "resume", "ret",
    "sdiv", "select", "sext", "shl", "shufflevector", "sitofp", "srem", "store", "sub", "switch", "trunc",
    "udiv", "uitofp", "unreachable", "urem", "va_arg", "xor", "zext"]

def modifierWords : List String :=
  ["acq_rel", "acquire", "afn", "arcp", "atomic", "contract", "eq", "exact", "fast", "inbounds",
    "inteldialect", "max", "min", "monotonic", "musttail", "nand", "ne", "ninf", "nnan", "notail", "nsw",
    "nsz", "nuw", "oeq", "oge", "ogt", "ole", "olt", "one", "ord", "reassoc", "release", "seq_cst", "sge",
    "sgt", "sideeffect", "sle", "slt", "tail", "ueq", "uge", "ugt", "ule", "ult", "umax", "umin", "une", "uno",
    "unordered", "volatile", "xchg"]

def debugWords : List String := ["FullDebug", "LineTablesOnly", "DebugDirectivesOnly", "NoDebug", "Default", "GNU", "None"]

def words : List String :=
  structureWords ++ linkageWords ++ typeWords ++ conventionWords ++ attributeWords ++ operationWords ++
    modifierWords ++ debugWords ++ strangeWords ++ ["..."]

/-- Openings of the words of the numbered vocabularies; letters, digits and underscores follow. -/
def wordOpenings : List String :=
  ["DW_TAG_", "DW_ATE_", "DW_LANG_", "DW_CC_", "DW_VIRTUALITY_", "DW_MACINFO_", "DW_OP_", "DIFlag", "DISPFlag", "CSK_"]

end CallFusion.Ir
