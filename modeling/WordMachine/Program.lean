import WordMachine.Execution

namespace WordMachine

structure Statement where
  instruction : Instruction
  operands : List Word
  deriving DecidableEq

def Statement.execute (s : Statement) (m : Machine) : Outcome Machine ExecutionError Flow :=
  s.instruction.execute s.operands m

/-- A statement's place, counted from 0. A branch target is counted with the same 64 bits, read as
two's complement. -/
abbrev Place := BitVec 64

/-- Where control goes from the statement at `pc`. A branch is counted from the one after it. -/
def Flow.target (pc : Place) : Flow → Place
  | .next => pc + 1
  | .branch target => pc + 1 + target.signExtend 64

/-- The place to run after the one at `pc`. A negative target is none. -/
def Flow.successor? (pc : Place) (flow : Flow) : Option Place :=
  if (flow.target pc).msb then none else some (flow.target pc)

abbrev Program := Array Statement

namespace Program

def at? (p : Program) (pc : Place) : Option Statement := p[pc.toNat]?

/-- A run under way: the next statement, the steps done, the machine, and the log so far. -/
structure Progress where
  pc : Place := 0
  steps : Nat := 0
  machine : Machine
  log : Array Event := #[]

def Progress.finish (run : Progress) : Outcome Machine ExecutionError Nat :=
  { result := .ok run.steps, state := run.machine, log := run.log.toList }

/-- Goes on for at most `fuel` steps. A step that leads out of the program counts, one that fails
does not. -/
def resume (p : Program) : Nat → Progress → Outcome Machine ExecutionError Nat
  | 0, run => run.finish
  | fuel + 1, run =>
    match p.at? run.pc with
    | none => run.finish
    | some statement =>
      let ⟨result, machine, events⟩ := statement.execute run.machine
      let log := run.log ++ events
      match result with
      | .error e => { result := .error e, state := machine, log := log.toList }
      | .ok flow =>
        let stepped := { run with steps := run.steps + 1, machine, log }
        match flow.successor? run.pc with
        | none => stepped.finish
        | some pc => p.resume fuel { stepped with pc }

/-- Runs from the first statement until control leaves the program, a statement fails, or
`maxSteps` statements have been executed. -/
def run (p : Program) (m : Machine) (maxSteps : Nat) : Outcome Machine ExecutionError Nat :=
  p.resume maxSteps { machine := m }

end Program

end WordMachine
