import WordMachine.Program

namespace WordMachine

/-- Clearing concerns memory only, resetting the registers as well. -/
inductive Call
  | setRegister (index value : Word)
  | register (index : Word)
  | word (address : Word)
  | setWord (address value : Word)
  | load (address : Word) (words : List Word)
  | clear
  | reset
  | execute (instruction : Instruction) (operands : List Word)
  | run (program : Program) (maxSteps : Nat)
  deriving DecidableEq

inductive Failure
  | access (cause : Trap)
  | execution (cause : ExecutionError)
  deriving DecidableEq

inductive Answer
  | done
  | value (value : Word)
  | flow (flow : Flow)
  | steps (count : Nat)
  deriving DecidableEq

def Outcome.recast {ε α : Type} (failure : ε → Failure) (answer : α → Answer)
    (o : Outcome Machine ε α) : Outcome Machine Failure Answer :=
  { o with result := (answer <$> o.result).mapError failure }

def Call.perform (m : Machine) : Call → Outcome Machine Failure Answer
  | .setRegister index value =>
    (Work.setRegister index value m).recast .access fun () => .done
  | .register index => (Work.register index m).recast .access .value
  | .word address => (Work.word address m).recast .access .value
  | .setWord address value => (Work.setWord address value m).recast .access fun () => .done
  | .load address words => (m.load address words).recast (.access ∘ .address) fun () => .done
  | .clear => { result := .ok .done, state := { m with memory := m.memory.clear } }
  | .reset => { result := .ok .done, state := m.reset }
  | .execute instruction operands => (instruction.execute operands m).recast .execution .flow
  | .run program maxSteps => (program.run m maxSteps).recast .execution .steps

namespace Machine

def after (m : Machine) : List Call → Machine
  | [] => m
  | call :: rest => (call.perform m).state.after rest

def replies (m : Machine) : List Call → List (Except Failure Answer × List Event)
  | [] => []
  | call :: rest =>
    ((call.perform m).result, (call.perform m).log) :: (call.perform m).state.replies rest

theorem after_append (m : Machine) (calls later : List Call) :
    m.after (calls ++ later) = (m.after calls).after later := by
  induction calls generalizing m with
  | nil => rfl
  | cons call rest ih => exact ih _

theorem replies_append (m : Machine) (calls later : List Call) :
    m.replies (calls ++ later) = m.replies calls ++ (m.after calls).replies later := by
  induction calls generalizing m with
  | nil => rfl
  | cons call rest ih => exact congrArg (_ :: ·) (ih _)

end Machine

end WordMachine
