import WordMachine.Word

namespace WordMachine

/-- The layout family of an encoding. It is documentation; the template decides. -/
inductive Format
  | r
  | i
  | iBranch
  deriving DecidableEq

def Format.name : Format → String
  | .r => "R"
  | .i => "I"
  | .iBranch => "IBranch"

inductive Operation
  | add | sub | and | or | xor
  | addi | ld | st
  | beq
  | grub
  | tripled | deep | prim
  | loaded
  deriving DecidableEq

/-- The shape of an operation: which operands name registers, which are literal, and where the
result goes. Operations of one shape differ only in the function they apply. -/
inductive Action
  /-- Combines the second and third register into the first. -/
  | binary (f : Word → Word → Word)
  /-- Transforms the second register into the first. -/
  | unary (f : Word → Word)
  /-- Combines the second register and the third operand, a literal, into the first register. -/
  | immediate (f : Word → Word → Word)
  /-- Transforms the second operand, a literal, into the first register. -/
  | constant (f : Word → Word)
  /-- Transforms the memory word at second register plus offset into the first register. -/
  | load (f : Word → Word)
  /-- Puts the first register into memory at second register plus offset. -/
  | store
  /-- Branches by the third operand if the first two registers are equal. -/
  | branch

def Action.arity : Action → Nat
  | .unary _ | .constant _ => 2
  | .binary _ | .immediate _ | .load _ | .store | .branch => 3

namespace Operation

def action : Operation → Action
  | .add => .binary (· + ·)
  | .sub => .binary (· - ·)
  | .and => .binary (· &&& ·)
  | .or => .binary (· ||| ·)
  | .xor => .binary (· ^^^ ·)
  | .addi => .immediate fun a n => a + n.signExtendLow
  | .ld => .load id
  | .st => .store
  | .beq => .branch
  | .grub => .constant (· &&& 0xff)
  | .tripled => .unary (· * 3)
  | .deep => .unary BitVec.reverse
  | .prim => .unary fun a => if a.isPrime then 1 else 0
  | .loaded => .load (· ||| 0x80000000)

def arity (o : Operation) : Nat := o.action.arity

end Operation

end WordMachine
