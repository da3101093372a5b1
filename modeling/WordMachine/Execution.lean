import WordMachine.Instruction
import WordMachine.Machine

namespace WordMachine

/-- Where execution goes on: at the next statement, or `target` statements beyond that one. -/
inductive Flow
  | next
  | branch (target : Word)
  deriving DecidableEq

inductive Trap
  | operandCount
  | register (cause : InvalidRegister)
  | address (cause : AddressError)
  deriving DecidableEq

/-- Work on a machine ends in an answer or a trap. Either way it leaves a machine behind and has
reported some events. -/
def Work (α : Type) := Machine → Outcome Machine Trap α

namespace Work

instance : Monad Work where
  pure a := fun m => { result := .ok a, state := m }
  bind first second := fun m =>
    let before := first m
    match before.result with
    | .error trap => { result := .error trap, state := before.state, log := before.log }
    | .ok a =>
      let after := second a before.state
      { result := after.result, state := after.state, log := before.log ++ after.log }

def trap {α : Type} (t : Trap) : Work α := fun m => { result := .error t, state := m }

def report (e : Event) : Work Unit := fun m => { result := .ok (), state := m, log := [e] }

def register (index : Word) : Work Word := fun m =>
  { result := (m.registers.read index).mapError .register, state := m }

def setRegister (index value : Word) : Work Unit := fun m =>
  let written := m.registers.write index value
  { result := written.result.mapError .register
    state := { m with registers := written.state }
    log := written.log }

/-- The address at a base register plus a signed 16-bit displacement. -/
def address (base displacement : Word) : Work Word := do
  return (← register base) + displacement.signExtendLow

def word (address : Word) : Work Word := fun m =>
  { result := (m.memory.read address).mapError .address, state := m }

def setWord (address value : Word) : Work Unit := fun m =>
  let written := m.memory.write address value
  { result := written.result.mapError .address
    state := { m with memory := written.state } }

end Work

/-- What an action does with its operands, in the order in which it looks at them. -/
def Action.perform : Action → List Word → Work Flow
  | .binary f, [target, first, second] => do
    let a ← Work.register first
    let b ← Work.register second
    Work.setRegister target (f a b)
    return .next
  | .unary f, [target, source] => do
    let a ← Work.register source
    Work.setRegister target (f a)
    return .next
  | .immediate f, [target, source, literal] => do
    let a ← Work.register source
    Work.setRegister target (f a literal)
    return .next
  | .constant f, [target, literal] => do
    Work.setRegister target (f literal)
    return .next
  | .load f, [target, base, displacement] => do
    let address ← Work.address base displacement
    let w ← Work.word address
    Work.setRegister target (f w)
    return .next
  | .store, [source, base, displacement] => do
    let value ← Work.register source
    let address ← Work.address base displacement
    Work.setWord address value
    return .next
  | .branch, [first, second, target] => do
    let a ← Work.register first
    let b ← Work.register second
    if a = b then
      Work.report (.branchTaken target)
      return .branch target
    return .next
  | _, _ => Work.trap .operandCount

inductive ExecutionError
  | register (mnemonic : String) (cause : InvalidRegister)
  | address (mnemonic : String) (operands : List Word) (cause : AddressError)
  | operandCount (cause : ArityError)
  deriving DecidableEq

namespace ExecutionError

def mnemonic : ExecutionError → String
  | .register mnemonic _ => mnemonic
  | .address mnemonic _ _ => mnemonic
  | .operandCount cause => cause.mnemonic

def message : ExecutionError → String
  | .register mnemonic cause => mnemonic ++ ": " ++ cause.message
  | .address mnemonic operands cause =>
    mnemonic ++ " " ++ Word.listText operands ++ ": " ++ cause.message
  | .operandCount cause => cause.message

end ExecutionError

namespace Instruction

def explain (i : Instruction) (operands : List Word) : Trap → ExecutionError
  | .operandCount => .operandCount (i.arityError operands)
  | .register cause => .register i.mnemonic cause
  | .address cause => .address i.mnemonic operands cause

/-- An instruction with the wrong number of operands is not even reported as executed. -/
def startEvents (i : Instruction) (operands : List Word) : List Event :=
  if operands.length = i.arity then [.executed i.mnemonic operands] else []

def execute (i : Instruction) (operands : List Word) (m : Machine) :
    Outcome Machine ExecutionError Flow :=
  let done := i.operation.action.perform operands m
  { result := done.result.mapError (i.explain operands)
    state := done.state
    log := i.startEvents operands ++ done.log }

end Instruction

end WordMachine
