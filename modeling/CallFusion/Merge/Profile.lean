import CallFusion.Fault
import CallFusion.Text.Quoted
import CallFusion.Text.Trim

/-!
Toolchain profiles: how the runtime of a toolchain names its RPC stub, its marshalling calls and
its entry chain, and which arguments of the stub a merged callee takes.
-/
namespace CallFusion

structure MarshallingNames where
  receive : String
  send : String
  deriving DecidableEq, Repr, Inhabited

@[ext]
structure Payload where
  size : UInt64
  align : UInt64
  deriving DecidableEq, Repr, Inhabited

def Payload.standard : Payload := ⟨24, 8⟩

structure Profile where
  name : String
  stub : String
  /-- Whether the stub's logical name only has to start so. -/
  stubIsStart : Bool
  nameOperand : Option Nat
  /-- Arguments of the stub passed to the merged callee. -/
  positions : List Nat
  marshalling : MarshallingNames
  realCalleeStem : String
  entryStem : String
  /-- Empty when the toolchain has no separate runtime entry. -/
  runtimeStartStem : String
  mergedCalleeStem : String
  defaultCaller : String
  existingCallee : String
  payload : Payload
  deriving DecidableEq, Repr, Inhabited

namespace Profile

def go : Profile where
  name := "go"
  stub := "main.make__rpc"
  stubIsStart := false
  nameOperand := none
  positions := [0, 3, 4]
  marshalling := ⟨"main.get__arg__from__caller", "main.send__return__value__to__caller"⟩
  realCalleeStem := "main_2nd_for_"
  entryStem := "main_for_"
  runtimeStartStem := ""
  mergedCalleeStem := "NewCallee_"
  defaultCaller := "main.main"
  existingCallee := "main.wrapper__go2c"
  payload := .standard

def rust : Profile where
  name := "rust"
  stub := "OpenFaaSRPC::make_rpc"
  stubIsStart := true
  nameOperand := some 1
  positions := [0, 3]
  marshalling := ⟨"OpenFaaSRPC::get_arg_from_caller", "OpenFaaSRPC::send_return_value_to_caller"⟩
  realCalleeStem := "callee_"
  entryStem := "main_callee_rust_"
  runtimeStartStem := "_std_rt_lang_start_callee_"
  mergedCalleeStem := "NewCallee_"
  defaultCaller := ""
  existingCallee := ""
  payload := .standard

def all : List Profile := [go, rust]

end Profile

structure KnownProfile extends Profile where
  known : toProfile ∈ Profile.all

instance : Coe KnownProfile Profile := ⟨KnownProfile.toProfile⟩

namespace Profile

/-- The profile of a name, in any case and with blanks around it. -/
def lookup (name : String) : Except Fault KnownProfile :=
  let wanted := Text.lower (Text.trim name)
  match found : all.find? (·.name == wanted) with
  | some p => .ok ⟨p, List.mem_of_find?_eq_some found⟩
  | none => .error (.configuration ("unknown profile " ++ Text.quoted name ++ " (expected go or rust)") none)

variable (p : Profile)

def matchesStub (logical : String) : Bool :=
  if p.stubIsStart then logical.startsWith p.stub else logical == p.stub

def realCalleeName (callee : String) : String := p.realCalleeStem ++ callee

def entryName (callee : String) : String := p.entryStem ++ callee

def mergedCalleeName (callee : String) : String := p.mergedCalleeStem ++ callee

def runtimeStartName? (callee : String) : Option String :=
  if p.runtimeStartStem.isEmpty then none else some (p.runtimeStartStem ++ callee)

end Profile
end CallFusion
