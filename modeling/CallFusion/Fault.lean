/-!
Causes of failure. A fault may carry the fault that caused it; `message` spells the chain out, and
`kinds` says which classes a report may file it under.
-/
namespace CallFusion

inductive Fault.Kind where
  | functionNotFound
  | callSiteNotFound
  | missingName
  | demanglerUnavailable
  | structural
  | hasUses
  | parseModule
  | writeModule
  | configuration
  | store
  | interrupted
  deriving DecidableEq, Repr, Inhabited

def Fault.Kind.title : Fault.Kind → String
  | functionNotFound => "function not found"
  | callSiteNotFound => "call site not found"
  | missingName => "required name not specified"
  | demanglerUnavailable => "demangling bridge unavailable"
  | structural => "unexpected IR structure"
  | hasUses => "value still has uses"
  | parseModule => "failed to parse IR"
  | writeModule => "failed to write IR"
  | configuration => "configuration error"
  | store => "store error"
  | interrupted => "interrupt received"

def Fault.Kind.all : List Fault.Kind :=
  [functionNotFound, callSiteNotFound, missingName, demanglerUnavailable, structural, hasUses, parseModule,
    writeModule, configuration, store, interrupted]

inductive Fault where
  | plain (text : String)
  /-- Text that does not follow its format; reports leave its wording open. -/
  | malformed
  | fileMissing (text : String)
  | cancelled
  | functionNotFound (name : String)
  | callSiteNotFound (caller callee : String)
  | missingName (which : String)
  | demanglerUnavailable (cause : Option Fault)
  | structural (what : String)
  | hasUses (value : String) (count : Int)
  | parseModule (path : String) (cause : Option Fault)
  | writeModule (path : String) (cause : Option Fault)
  | configuration (what : String) (cause : Option Fault)
  | store (what : String) (cause : Option Fault)
  | interrupted
  | during (context : String) (cause : Fault)
  | both (first second : Fault)
  deriving Repr, Inhabited

namespace Fault

def absentCause : String := "%!w(<nil>)"

def titled (kind : Kind) (detail : String) : String := kind.title ++ ": " ++ detail

mutual
def message : Fault → String
  | plain text => text
  | malformed => "malformed input"
  | fileMissing text => text
  | cancelled => "context canceled"
  | functionNotFound name => titled .functionNotFound ("'" ++ name ++ "'")
  | callSiteNotFound caller callee => titled .callSiteNotFound ("no " ++ callee ++ " call in '" ++ caller ++ "'")
  | missingName which => titled .missingName ("didn't specify " ++ which ++ " name")
  | demanglerUnavailable cause => titled .demanglerUnavailable (requiredCause cause)
  | structural what => titled .structural what
  | hasUses value count => titled .hasUses (value ++ " is referenced by " ++ toString count ++ " operand(s)")
  | parseModule path cause => titled .parseModule (path ++ ": " ++ requiredCause cause)
  | writeModule path cause => titled .writeModule (path ++ ": " ++ requiredCause cause)
  | configuration what cause => titled .configuration (what ++ optionalCause cause)
  | store what cause => titled .store (what ++ optionalCause cause)
  | interrupted => Kind.interrupted.title
  | during context cause => context ++ ": " ++ message cause
  | both first second => message first ++ "\n" ++ message second

def requiredCause : Option Fault → String
  | none => absentCause
  | some cause => message cause

def optionalCause : Option Fault → String
  | none => ""
  | some cause => ": " ++ message cause
end

mutual
def kinds : Fault → List Kind
  | plain _ => []
  | malformed => []
  | fileMissing _ => []
  | cancelled => []
  | functionNotFound _ => [.functionNotFound]
  | callSiteNotFound _ _ => [.callSiteNotFound]
  | missingName _ => [.missingName]
  | demanglerUnavailable cause => .demanglerUnavailable :: causeKinds cause
  | structural _ => [.structural]
  | hasUses _ _ => [.hasUses]
  | parseModule _ cause => .parseModule :: causeKinds cause
  | writeModule _ cause => .writeModule :: causeKinds cause
  | configuration _ cause => .configuration :: causeKinds cause
  | store _ cause => .store :: causeKinds cause
  | interrupted => [.interrupted]
  | during _ cause => kinds cause
  | both first second => kinds first ++ kinds second

def causeKinds : Option Fault → List Kind
  | none => []
  | some cause => kinds cause
end

mutual
def anyCause (p : Fault → Bool) : Fault → Bool
  | demanglerUnavailable cause => p (demanglerUnavailable cause) || anyOptional p cause
  | parseModule path cause => p (parseModule path cause) || anyOptional p cause
  | writeModule path cause => p (writeModule path cause) || anyOptional p cause
  | configuration what cause => p (configuration what cause) || anyOptional p cause
  | store what cause => p (store what cause) || anyOptional p cause
  | during context cause => p (during context cause) || anyCause p cause
  | both first second => p (both first second) || anyCause p first || anyCause p second
  | f => p f

def anyOptional (p : Fault → Bool) : Option Fault → Bool
  | none => false
  | some cause => anyCause p cause
end

/-- The class a report files the fault under: the first in the fixed order that it has. -/
def kind? (f : Fault) : Option Kind := let ks := f.kinds; Kind.all.find? (ks.contains ·)

def isMalformed : Fault → Bool := anyCause fun
  | malformed => true
  | _ => false

def isFileMissing : Fault → Bool := anyCause fun
  | fileMissing _ => true
  | _ => false

def isCancelled : Fault → Bool := anyCause fun
  | cancelled => true
  | _ => false

end Fault
end CallFusion
