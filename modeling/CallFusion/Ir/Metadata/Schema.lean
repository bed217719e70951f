import CallFusion.Ir.Metadata.Vocabulary

/-!
Fields of the specialised metadata nodes, in the order in which they are printed. A field that holds
the zero of its form is left out unless its rule says that it is printed all the same.
-/
namespace CallFusion.Ir

inductive FieldForm where
  | text
  | integer
  | truth
  | metadata
  /-- Any metadata, or a number; zero counts as given. -/
  | metadataOrInteger
  | node (kind : String)
  | tuple
  | member (vocabulary : Vocabulary)
  | memberName (vocabulary : Vocabulary)
  | declarationFlags
  | subprogramFlags
  | operands
  deriving DecidableEq, Repr, Inhabited

/-- When a field is printed that holds the zero of its form. -/
inductive Presence where
  | never
  | always
  | unlessDistinct
  deriving DecidableEq, Repr, Inhabited

structure FieldRule where
  key : String
  form : FieldForm
  zero : Presence
  deriving DecidableEq, Repr, Inhabited

namespace FieldRule

def required (key : String) (form : FieldForm) : FieldRule := ⟨key, form, .always⟩

def optional (key : String) (form : FieldForm) : FieldRule := ⟨key, form, .never⟩

def showsZero (r : FieldRule) (distinct : Bool) : Bool :=
  match r.zero with
  | .never => false
  | .always => true
  | .unlessDistinct => !distinct

def name : FieldRule := optional "name" .text

def scope : FieldRule := optional "scope" .metadata

def file : FieldRule := optional "file" (.node "DIFile")

def line : FieldRule := optional "line" .integer

def type : FieldRule := optional "type" .metadata

def size : FieldRule := optional "size" .integer

def align : FieldRule := optional "align" .integer

def flags : FieldRule := optional "flags" .declarationFlags

def annotations : FieldRule := optional "annotations" .metadata

def templateParams : FieldRule := optional "templateParams" .tuple

def encoding : FieldRule := optional "encoding" (.member .encoding)

def tag : FieldRule := required "tag" (.member .tag)

def bounds : List FieldRule :=
  ["count", "lowerBound", "upperBound", "stride"].map (optional · .metadataOrInteger)

end FieldRule

open FieldRule

def typeNodeRules : List (String × List FieldRule) :=
  [("DIBasicType", [optional "tag" (.member .tag), name, size, align, encoding, flags]),
    ("DICompositeType",
      [tag, name, scope, file, line, optional "baseType" .metadata, size, align, optional "offset" .integer, flags,
        optional "elements" .tuple, optional "runtimeLang" (.member .language), optional "vtableHolder" (.node "DICompositeType"),
        templateParams, optional "identifier" .text, optional "discriminator" .metadata,
        optional "dataLocation" .metadata, optional "associated" .metadata, optional "allocated" .metadata,
        optional "rank" .metadataOrInteger, annotations]),
    ("DIDerivedType",
      [tag, name, scope, file, line, required "baseType" .metadata, size, align, optional "offset" .integer, flags,
        optional "extraData" .metadata, optional "dwarfAddressSpace" .integer, annotations]),
    ("DIEnumerator", [required "name" .text, required "value" .integer, optional "isUnsigned" .truth]),
    ("DIGenericSubrange", bounds),
    ("DIStringType",
      [optional "tag" (.member .tag), name, optional "stringLength" .metadata,
        optional "stringLengthExpression" .metadata, optional "stringLocationExpression" .metadata, size, align,
        encoding]),
    ("DISubrange", bounds),
    ("DISubroutineType", [flags, optional "cc" (.member .callingConvention), required "types" .tuple]),
    ("DITemplateTypeParameter", [name, optional "defaulted" .truth, required "type" .metadata]),
    ("DITemplateValueParameter",
      [optional "tag" (.member .tag), name, type, optional "defaulted" .truth, required "value" .metadata])]

def variableNodeRules : List (String × List FieldRule) :=
  [("DIGlobalVariable",
      [required "name" .text, scope, optional "linkageName" .text, file, line, type, optional "isLocal" .truth,
        optional "isDefinition" .truth, templateParams, optional "declaration" .metadata, align, annotations]),
    ("DIGlobalVariableExpression",
      [required "var" (.node "DIGlobalVariable"), optional "expr" (.node "DIExpression")]),
    ("DIImportedEntity",
      [tag, required "scope" .metadata, optional "entity" .metadata, file, line, name, optional "elements" .tuple]),
    ("DILocalVariable",
      [name, optional "arg" .integer, required "scope" .metadata, file, line, type, flags, align, annotations]),
    ("DIMacro", [required "type" (.member .macroKind), line, required "name" .text, optional "value" .text]),
    ("DIMacroFile",
      [optional "type" (.member .macroKind), line, required "file" (.node "DIFile"), optional "nodes" .tuple]),
    ("DIObjCProperty",
      [name, file, line, optional "setter" .text, optional "getter" .text, optional "attributes" .integer, type]),
    ("GenericDINode", [tag, optional "header" .text, optional "operands" .operands])]

def scopeNodeRules : List (String × List FieldRule) :=
  [("DICommonBlock", [required "scope" .metadata, optional "declaration" .metadata, name, file, line]),
    ("DICompileUnit",
      [required "language" (.member .language), required "file" (.node "DIFile"), optional "producer" .text,
        optional "isOptimized" .truth, optional "flags" .text, optional "runtimeVersion" .integer,
        optional "splitDebugFilename" .text, optional "emissionKind" (.member .emissionKind),
        optional "enums" .tuple, optional "retainedTypes" .tuple, optional "globals" .tuple,
        optional "imports" .tuple, optional "macros" .tuple, optional "dwoId" .integer,
        optional "splitDebugInlining" .truth, optional "debugInfoForProfiling" .truth,
        optional "nameTableKind" (.member .nameTableKind), optional "debugBaseAddress" .truth, optional "rangesBaseAddress" .truth,
        optional "sysroot" .text, optional "sdk" .text]),
    ("DIFile",
      [required "filename" .text, required "directory" .text, optional "checksumkind" (.memberName .checksumKind),
        optional "checksum" .text, optional "source" .text]),
    ("DILabel",
      [required "scope" .metadata, required "name" .text, required "file" (.node "DIFile"), required "line" .integer]),
    ("DILexicalBlock", [required "scope" .metadata, file, line, optional "column" .integer]),
    ("DILexicalBlockFile", [required "scope" .metadata, file, required "discriminator" .integer]),
    ("DILocation",
      [line, optional "column" .integer, required "scope" .metadata, optional "inlinedAt" (.node "DILocation"),
        optional "isImplicitCode" .truth]),
    ("DIModule",
      [required "scope" .metadata, required "name" .text, optional "configMacros" .text, optional "includePath" .text,
        optional "apinotes" .text, file, line, optional "isDecl" .truth]),
    ("DINamespace", [required "scope" .metadata, name, optional "exportSymbols" .truth]),
    ("DISubprogram",
      [name, optional "linkageName" .text, scope, file, line, type, optional "isLocal" .truth,
        ⟨"isDefinition", .truth, .unlessDistinct⟩, optional "scopeLine" .integer, optional "containingType" .metadata,
        optional "virtuality" (.member .virtuality), optional "virtualIndex" .integer,
        optional "thisAdjustment" .integer, flags, optional "spFlags" .subprogramFlags,
        optional "isOptimized" .truth, optional "unit" (.node "DICompileUnit"), templateParams,
        optional "declaration" .metadata, optional "retainedNodes" .tuple, optional "thrownTypes" .tuple,
        annotations])]

def nodeRules : List (String × List FieldRule) := typeNodeRules ++ variableNodeRules ++ scopeNodeRules

def fieldRules? (kind : String) : Option (List FieldRule) := (nodeRules.find? (·.1 == kind)).map (·.2)

def nodeKinds : List String := ["DIExpression", "DIArgList"] ++ nodeRules.map (·.1)

def fieldKeys : List String := (nodeRules.flatMap fun r => r.2.map (·.key)).eraseDups

def unlabellingKeys : List String :=
  ["allocated", "annotations", "apinotes", "associated", "dataLocation", "debugBaseAddress", "defaulted",
    "isDecl", "isImplicitCode", "nameTableKind", "rangesBaseAddress", "rank", "sdk", "spFlags", "stride",
    "stringLength", "stringLengthExpression", "stringLocationExpression", "sysroot", "upperBound"]

end CallFusion.Ir
