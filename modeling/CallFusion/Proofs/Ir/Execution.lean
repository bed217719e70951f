import CallFusion.Ir.CallSite
import Mathlib.Logic.Relation

/-!
What a function does, step by step. The meaning of instructions, the outcome of calls and the choices of
terminators are parameters; what is fixed is how control goes through blocks, how phis take their values
from the edge that was taken, and that a call either returns or unwinds.
-/

namespace CallFusion.Ir

variable {Val Mem : Type}

abbrev Env (Val : Type) := LocalId → Option Val

def Env.set (env : Env Val) (id : LocalId) (r : Option Val) : Env Val := fun x => if x = id then r else env x

/-- The meaning of everything but control. Operands come as values, one that is not computed yet as none;
instructions and calls without a result leave none. -/
structure Semantics (Val Mem : Type) where
  const : Value → Val
  exec : Ty → Operation (Option Val) → Mem → Option Val → Mem → Prop
  returns : Option Val → List (Argument (Option Val)) → Mem → Option Val → Mem → Prop
  unwinds : Option Val → List (Argument (Option Val)) → Mem → Mem → Prop
  /-- Which of its targets a terminator goes to, if it does not leave the function. -/
  goes : Terminator (Option Val) → Mem → Option Nat → Option Val → Mem → Prop

/-- Where an execution is: ahead of an instruction or of the terminator of a block, or at an end. -/
inductive Config (Val Mem : Type) where
  | running (block : LocalId) (pc : Nat) (env : Env Val) (mem : Mem)
  | left (op : Terminator (Option Val)) (mem : Mem)
  | unwound (mem : Mem)

def Operation.isPhi {α : Type} : Operation α → Bool
  | phi _ _ => true
  | _ => false

def Operation.isCall {α : Type} : Operation α → Bool
  | call _ _ => true
  | _ => false

/-- The terminators whose choices are parameters: all but plain branches and invokes. -/
def Terminator.Chooses {α : Type} : Terminator α → Prop
  | br _ => False
  | invoke _ _ _ => False
  | _ => True

def Block.phis (b : Block) : List Instruction := b.insts.takeWhile (·.op.isPhi)

def Instruction.arrival? (i : Instruction) (source : LocalId) : Option Value :=
  match i.op with
  | .phi _ incoming => (incoming.find? fun e => e.2.block? == some source).map (·.1)
  | _ => none

namespace Semantics

variable (S : Semantics Val Mem)

def eval (env : Env Val) : Value → Option Val
  | .local id _ => env id
  | v => some (S.const v)

def args (env : Env Val) (c : Call Value) : List (Argument (Option Val)) :=
  c.args.map fun a => a.bare.mapOperands fun _ => S.eval env

/-- The locals on entry to a block: its phis take their values all at once. -/
def join (env : Env Val) (source : LocalId) (b : Block) : Env Val := fun id =>
  match b.phis.find? (·.id == id) with
  | some i => (i.arrival? source).bind (S.eval env)
  | none => env id

def enter (env : Env Val) (source : LocalId) (b : Block) (mem : Mem) : Config Val Mem :=
  .running b.id b.phis.length (S.join env source b) mem

/-- One step of a function. The label is the number of the call or invoke that unwound, if one did. -/
inductive Step (f : Function) : Config Val Mem → Option LocalId → Config Val Mem → Prop
  | plain {b : Block} {pc : Nat} {i : Instruction} {env : Env Val} {mem mem' : Mem} {r : Option Val}
      (here : b ∈ f.blocks) (at_pc : b.insts[pc]? = some i) (noPhi : i.op.isPhi = false) (noCall : i.op.isCall = false)
      (done : S.exec i.type (i.op.mapOperands fun _ => S.eval env) mem r mem') :
      Step f (.running b.id pc env mem) none (.running b.id (pc + 1) (env.set i.id r) mem')
  | returned {b : Block} {pc : Nat} {i : Instruction} {tail : String} {c : Call Value} {env : Env Val} {mem mem' : Mem}
      {r : Option Val} (here : b ∈ f.blocks) (at_pc : b.insts[pc]? = some i) (op : i.op = .call tail c)
      (done : S.returns (S.eval env c.callee) (S.args env c) mem r mem') :
      Step f (.running b.id pc env mem) none (.running b.id (pc + 1) (env.set i.id r) mem')
  | thrown {b : Block} {pc : Nat} {i : Instruction} {tail : String} {c : Call Value} {env : Env Val} {mem mem' : Mem}
      (here : b ∈ f.blocks) (at_pc : b.insts[pc]? = some i) (op : i.op = .call tail c)
      (done : S.unwinds (S.eval env c.callee) (S.args env c) mem mem') :
      Step f (.running b.id pc env mem) (some i.id) (.unwound mem')
  | branch {b d : Block} {env : Env Val} {mem : Mem} (here : b ∈ f.blocks) (op : b.term.op = .br (.block d.id))
      (there : d ∈ f.blocks) : Step f (.running b.id b.insts.length env mem) none (S.enter env b.id d mem)
  | normal {b d : Block} {c : Call Value} {unwind : Value} {env : Env Val} {mem mem' : Mem} {r : Option Val}
      (here : b ∈ f.blocks) (op : b.term.op = .invoke c (.block d.id) unwind) (there : d ∈ f.blocks)
      (done : S.returns (S.eval env c.callee) (S.args env c) mem r mem') :
      Step f (.running b.id b.insts.length env mem) none (S.enter (env.set b.term.id r) b.id d mem')
  | unwind {b d : Block} {c : Call Value} {normal : Value} {env : Env Val} {mem mem' : Mem}
      (here : b ∈ f.blocks) (op : b.term.op = .invoke c normal (.block d.id)) (there : d ∈ f.blocks)
      (done : S.unwinds (S.eval env c.callee) (S.args env c) mem mem') :
      Step f (.running b.id b.insts.length env mem) (some b.term.id) (S.enter env b.id d mem')
  | jump {b d : Block} {k : Nat} {env : Env Val} {mem mem' : Mem} {r : Option Val} (here : b ∈ f.blocks)
      (chooses : b.term.op.Chooses) (target : b.term.op.targets[k]? = some (.block d.id)) (there : d ∈ f.blocks)
      (done : S.goes (b.term.op.mapOperands fun _ => S.eval env) mem (some k) r mem') :
      Step f (.running b.id b.insts.length env mem) none (S.enter (env.set b.term.id r) b.id d mem')
  | leave {b : Block} {env : Env Val} {mem mem' : Mem} {r : Option Val} (here : b ∈ f.blocks)
      (chooses : b.term.op.Chooses) (done : S.goes (b.term.op.mapOperands fun _ => S.eval env) mem none r mem') :
      Step f (.running b.id b.insts.length env mem) none (.left (b.term.op.mapOperands fun _ => S.eval env) mem')

/-- An execution of any length in which a certain call or invoke does not unwind. -/
def Runs (f : Function) (avoided : LocalId) : Config Val Mem → Config Val Mem → Prop :=
  Relation.ReflTransGen fun c d => ∃ label, label ≠ some avoided ∧ S.Step f c label d

end Semantics

/-- The locals when a function is called: its parameters have values and nothing else has. -/
def Function.called (f : Function) (given : List Val) : Env Val := fun id =>
  ((f.params.zip given).find? fun e => e.1.id == id).map (·.2)

def Function.starts (f : Function) (given : List Val) (mem : Mem) (c : Config Val Mem) : Prop :=
  ∃ b, f.blocks.head? = some b ∧ c = .running b.id 0 (f.called given) mem

end CallFusion.Ir
