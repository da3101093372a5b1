import Mathlib.Algebra.Group.Int.Defs
import Mathlib.Algebra.Group.Nat.Defs
import Mathlib.Data.List.Basic
import WordMachine.Program
import WordMachine.Proofs.Guards
import WordMachine.Proofs.SmallStep

namespace WordMachine

/-- Work that may also end in a fault, which leaves no machine behind. -/
def StrictWork (α : Type) := Machine → Strict (Outcome Machine Trap α)

namespace StrictWork

instance : Monad StrictWork where
  pure a := fun m => .ok { result := .ok a, state := m }
  bind first second := fun m => do
    let before ← first m
    match before.result with
    | .error trap => return { result := .error trap, state := before.state, log := before.log }
    | .ok a =>
      let after ← second a before.state
      return { result := after.result, state := after.state, log := before.log ++ after.log }

def value {α : Type} (x : Strict α) : StrictWork α := fun m => do
  return { result := .ok (← x), state := m }

def report (e : Event) : StrictWork Unit := fun m => .ok (Work.report e m)

def register (index : Word) : StrictWork Word := fun m => do
  let read ← m.registers.readStrict index
  return { result := read.mapError .register, state := m }

def setRegister (index value : Word) : StrictWork Unit := fun m => do
  let written ← m.registers.writeStrict index value
  return {
    result := written.result.mapError .register
    state := { m with registers := written.state }
    log := written.log }

def word (address : Word) : StrictWork Word := fun m => do
  let read ← m.memory.readStrict address
  return { result := read.mapError .address, state := m }

def setWord (address value : Word) : StrictWork Unit := fun m => do
  let written ← m.memory.writeStrict address value
  return {
    result := written.result.mapError .address
    state := { m with memory := written.state } }

variable (operands : List Word)

def operand (position : Nat) : StrictWork Word := value (Strict.index operands position)

def source (position : Nat) : StrictWork Word := do
  register (← operand operands position)

def address : StrictWork Word := do
  let base ← operand operands 1
  let displacement ← operand operands 2
  return (← register base) + displacement.signExtendLow

def unary (f : Word → Strict Word) : StrictWork Flow := do
  let a ← source operands 1
  let result ← value (f a)
  setRegister (← operand operands 0) result
  return .next

end StrictWork

open StrictWork in
/-- What an action does with its operands, which are looked up where they are needed. -/
def Action.performStrict (operands : List Word) : Action → StrictWork Flow
  | .binary f => do
    let a ← source operands 1
    let b ← source operands 2
    setRegister (← operand operands 0) (f a b)
    return .next
  | .unary f => StrictWork.unary operands fun a => .ok (f a)
  | .immediate f => do
    let a ← source operands 1
    let literal ← operand operands 2
    setRegister (← operand operands 0) (f a literal)
    return .next
  | .constant f => do
    let target ← operand operands 0
    let literal ← operand operands 1
    setRegister target (f literal)
    return .next
  | .load f => do
    let w ← word (← address operands)
    setRegister (← operand operands 0) (f w)
    return .next
  | .store => do
    let value ← source operands 0
    setWord (← address operands) value
    return .next
  | .branch => do
    let a ← source operands 0
    let b ← source operands 1
    if a = b then
      let target ← operand operands 2
      report (.branchTaken target)
      return .branch target
    return .next

/-- Trial division is the one function of an action that could fault. -/
def Operation.performStrict (operands : List Word) : Operation → StrictWork Flow
  | .prim => StrictWork.unary operands fun a => do return if ← a.isPrimeStrict then 1 else 0
  | o => o.action.performStrict operands

/-- Nothing is looked up if the number of operands is wrong. -/
def Instruction.executeStrict (i : Instruction) (operands : List Word) (m : Machine) :
    Strict (Outcome Machine ExecutionError Flow) :=
  if operands.length ≠ i.arity then
    return { result := .error (.operandCount (i.arityError operands)), state := m }
  else do
    let done ← i.operation.performStrict operands m
    return {
      result := done.result.mapError (i.explain operands)
      state := done.state
      log := .executed i.mnemonic operands :: done.log }

def Statement.executeStrict (s : Statement) (m : Machine) :
    Strict (Outcome Machine ExecutionError Flow) :=
  s.instruction.executeStrict s.operands m

/-- A branch is counted from the place of the next statement. -/
def Flow.targetStrict (next : Place) : Flow → Strict Place
  | .next => return next
  | .branch target => Strict.addSigned next (target.signExtend 64)

namespace Program

def resumeStrict (p : Program) :
    Nat → Progress → Strict (Outcome Machine ExecutionError Nat)
  | 0, run => return run.finish
  | fuel + 1, run =>
    match p.at? run.pc with
    | none => return run.finish
    | some statement => do
      let next ← Strict.addSigned run.pc 1
      let ⟨result, machine, events⟩ ← statement.executeStrict run.machine
      let log := run.log ++ events
      match result with
      | .error e => return { result := .error e, state := machine, log := log.toList }
      | .ok flow =>
        let pc ← flow.targetStrict next
        let steps ← Strict.add (BitVec.ofNat 64 run.steps) 1
        let stepped := { run with steps := steps.toNat, machine, log }
        if pc.msb then
          return stepped.finish
        p.resumeStrict fuel { stepped with pc }

def runStrict (p : Program) (m : Machine) (maxSteps : Nat) :
    Strict (Outcome Machine ExecutionError Nat) :=
  p.resumeStrict maxSteps { machine := m }

end Program

namespace StrictWork

/-- The strict work has no fault and does the same. -/
def Matches {α : Type} (strict : StrictWork α) (work : Work α) : Prop :=
  ∀ m, strict m = .ok (work m)

variable {α β : Type}

theorem value_bind {x : Strict α} {a : α} (h : x = .ok a) (next : α → StrictWork β) :
    value x >>= next = next a := by
  funext m
  subst h
  change (do
    let after ← next a m
    return { result := after.result, state := after.state, log := [] ++ after.log }) = next a m
  cases next a m <;> rfl

namespace Matches

theorem pure (a : α) : Matches (Pure.pure a) (Pure.pure a) := fun _ => rfl

theorem bind {strict : StrictWork α} {work : Work α} {next : α → StrictWork β}
    {next' : α → Work β} (first : Matches strict work) (rest : ∀ a, Matches (next a) (next' a)) :
    Matches (strict >>= next) (work >>= next') := by
  intro m
  refine (Strict.bind_ok (first m) _).trans ?_
  change _ = Except.ok ((work >>= next') m)
  simp only [Bind.bind]
  cases (work m).result with
  | error trap => rfl
  | ok a => exact Strict.bind_ok (rest a _) _

theorem report (e : Event) : Matches (StrictWork.report e) (Work.report e) := fun _ => rfl

theorem register (index : Word) : Matches (StrictWork.register index) (Work.register index) :=
  fun m => Strict.bind_ok (m.registers.readStrict_eq index) _

theorem setRegister (index value : Word) :
    Matches (StrictWork.setRegister index value) (Work.setRegister index value) :=
  fun m => Strict.bind_ok (m.registers.writeStrict_eq index value) _

theorem word (address : Word) : Matches (StrictWork.word address) (Work.word address) :=
  fun m => Strict.bind_ok (m.memory.readStrict_eq address) _

theorem setWord (address value : Word) :
    Matches (StrictWork.setWord address value) (Work.setWord address value) :=
  fun m => Strict.bind_ok (m.memory.writeStrict_eq address value) _

variable {operands : List Word}

theorem operand {position : Nat} {x : Word} (h : operands[position]? = some x)
    {next : Word → StrictWork α} {work : Work α} (rest : Matches (next x) work) :
    Matches (StrictWork.operand operands position >>= next) work := by
  rw [StrictWork.operand, value_bind (Strict.index_ok h)]
  exact rest

theorem source {position : Nat} {x : Word} (h : operands[position]? = some x) :
    Matches (source operands position) (Work.register x) :=
  .operand h (.register x)

theorem address {base displacement : Word} (hb : operands[1]? = some base)
    (hd : operands[2]? = some displacement) :
    Matches (address operands) (Work.address base displacement) :=
  .operand hb (.operand hd (.bind (.register base) fun _ => .pure _))

theorem unary {f : Word → Strict Word} {g : Word → Word} (h : ∀ a, f a = .ok (g a))
    (target source : Word) :
    Matches (StrictWork.unary [target, source] f) ((Action.unary g).perform [target, source]) := by
  refine .bind (.source rfl) fun a => ?_
  rw [value_bind (h a)]
  exact .operand rfl (.bind (.setRegister target (g a)) fun _ => .pure Flow.next)

end Matches

end StrictWork

open StrictWork (Matches)

/-- With the number of operands that an action takes, each one that it looks up is there. -/
theorem Action.performStrict_matches {a : Action} {operands : List Word}
    (h : operands.length = a.arity) :
    Matches (a.performStrict operands) (a.perform operands) := by
  cases a with
  | binary f =>
    obtain ⟨target, first, second, rfl⟩ := List.length_eq_three.mp h
    refine .bind (.source rfl) fun a => .bind (.source rfl) fun b => ?_
    exact .operand rfl (.bind (.setRegister target (f a b)) fun _ => .pure Flow.next)
  | unary f =>
    obtain ⟨target, source, rfl⟩ := List.length_eq_two.mp h
    exact .unary (fun _ => rfl) target source
  | immediate f =>
    obtain ⟨target, source, literal, rfl⟩ := List.length_eq_three.mp h
    refine .bind (.source rfl) fun a => .operand rfl ?_
    exact .operand rfl (.bind (.setRegister target (f a literal)) fun _ => .pure Flow.next)
  | constant f =>
    obtain ⟨target, literal, rfl⟩ := List.length_eq_two.mp h
    refine .operand rfl (.operand rfl ?_)
    exact .bind (.setRegister target (f literal)) fun _ => .pure Flow.next
  | load f =>
    obtain ⟨target, base, displacement, rfl⟩ := List.length_eq_three.mp h
    refine .bind (.address rfl rfl) fun address => .bind (.word address) fun w => ?_
    exact .operand rfl (.bind (.setRegister target (f w)) fun _ => .pure Flow.next)
  | store =>
    obtain ⟨source, base, displacement, rfl⟩ := List.length_eq_three.mp h
    refine .bind (.source rfl) fun value => .bind (.address rfl rfl) fun address => ?_
    exact .bind (.setWord address value) fun _ => .pure Flow.next
  | branch =>
    obtain ⟨first, second, target, rfl⟩ := List.length_eq_three.mp h
    refine .bind (.source rfl) fun a => .bind (.source rfl) fun b => ?_
    split
    · exact .operand rfl (.bind (.report (.branchTaken target)) fun _ => .pure _)
    · exact .pure Flow.next

theorem Operation.performStrict_matches {o : Operation} {operands : List Word}
    (h : operands.length = o.arity) :
    Matches (o.performStrict operands) (o.action.perform operands) := by
  cases o with
  | prim =>
    obtain ⟨target, source, rfl⟩ := List.length_eq_two.mp h
    exact .unary (fun a => Strict.bind_ok a.isPrimeStrict_eq _) target source
  | _ => exact Action.performStrict_matches h

namespace Instruction

theorem executeStrict_eq (i : Instruction) (operands : List Word) (m : Machine) :
    i.executeStrict operands m = .ok (i.execute operands m) := by
  unfold executeStrict
  by_cases h : operands.length = i.arity
  · rw [if_neg (not_not.mpr h)]
    refine (Strict.bind_ok (Operation.performStrict_matches h m) _).trans ?_
    rw [execute, startEvents, if_pos h]
    rfl
  · have htrap : i.effect operands m = .error .operandCount :=
      (Action.effect_eq_operandCount_iff _ m operands).mpr h
    rw [if_pos h, execute_of_trap htrap, startEvents, if_neg h]
    rfl

/-- The number of operands has to be checked before. -/
example (m : Machine) : Operation.grub.performStrict [0] m = .error (.index 1 1) := rfl

end Instruction

namespace Flow

variable {pc : Place}

theorem toInt_next (h : pc.toNat < 2 ^ 62) : (pc + 1).toInt = pc.toNat + 1 := by
  have htarget := toInt_target (by omega : pc.toNat < 2 ^ 63) .next
  rw [target, goal, Int.bmod_def] at htarget
  omega

theorem addSigned_one (h : pc.toNat < 2 ^ 62) : Strict.addSigned pc 1 = .ok (pc + 1) := by
  have hpc : pc.toInt = pc.toNat := BitVec.toInt_eq_toNat_of_lt (by omega)
  have hone : (1 : Place).toInt = 1 := rfl
  exact Strict.addSigned_ok (by omega) (by omega)

theorem targetStrict_eq (h : pc.toNat < 2 ^ 62) (flow : Flow) :
    flow.targetStrict (pc + 1) = .ok (flow.target pc) := by
  cases flow with
  | next => rfl
  | branch target =>
    have hnext := toInt_next h
    have hoffset : (target.signExtend 64).toInt = target.toInt :=
      BitVec.toInt_signExtend_of_le (by decide)
    have hlow := target.le_two_mul_toInt
    have hhigh := target.two_mul_toInt_lt
    exact Strict.addSigned_ok (by omega) (by omega)

end Flow

namespace Program

variable {p : Program}

theorem resumeStrict_eq (hp : p.size < 2 ^ 62) {fuel : Nat} {run : Progress}
    (h : run.steps + fuel < 2 ^ 64) : p.resumeStrict fuel run = .ok (p.resume fuel run) := by
  induction fuel generalizing run with
  | zero => rfl
  | succ fuel ih =>
    rw [resumeStrict, resume]
    cases hat : p.at? run.pc with
    | none => rfl
    | some statement =>
      have hpc := toNat_lt_of_at? hp hat
      have hsteps : Strict.add (BitVec.ofNat 64 run.steps) 1 = .ok (.ofNat 64 (run.steps + 1)) :=
        Strict.add_ofNat (l := 1) (by omega)
      have hcount : (BitVec.ofNat 64 (run.steps + 1)).toNat = run.steps + 1 :=
        Strict.toNat_ofNat (by omega)
      have hdone : statement.executeStrict run.machine = .ok (statement.execute run.machine) :=
        statement.instruction.executeStrict_eq statement.operands run.machine
      dsimp only
      rw [Strict.bind_ok (Flow.addSigned_one hpc), Strict.bind_ok hdone]
      cases statement.execute run.machine with
      | mk result machine events =>
        cases result with
        | error e => rfl
        | ok flow =>
          dsimp only
          rw [Strict.bind_ok (Flow.targetStrict_eq hpc flow), Strict.bind_ok hsteps, hcount,
            Flow.successor?]
          split
          · rfl
          · refine ih ?_
            dsimp only
            omega

end Program

/-- No instruction faults, whatever its operands, their number and the machine, and no run of fewer
than 2 ^ 62 statements does, as long as its limit is a number of 64 bits: what is looked up is
there, slices lie inside memory, no divisor is zero, and no number is out of range. -/
theorem running_never_faults :
    (∀ (i : Instruction) (operands : List Word) (m : Machine),
      i.executeStrict operands m = .ok (i.execute operands m)) ∧
    ∀ (p : Program) (m : Machine) (limit : Nat), p.size < 2 ^ 62 → limit < 2 ^ 64 →
      p.runStrict m limit = .ok (p.run m limit) := by
  refine ⟨Instruction.executeStrict_eq, fun p m limit hp hlimit => ?_⟩
  refine Program.resumeStrict_eq hp ?_
  dsimp only
  omega

/-- A branch to itself, taken as often as steps can be counted. -/
theorem running_never_faults_endless :
    ∃ (p : Program) (m : Machine), p.size = 1 ∧ (p.run m 5).result = .ok 5 ∧
      p.runStrict m (2 ^ 64 - 1) = .ok (p.run m (2 ^ 64 - 1)) := by
  refine ⟨#[⟨.beq, [0, 0, -1]⟩], ⟨.init .hardwired, ⟨0, .little, #[]⟩⟩, rfl, by rfl, ?_⟩
  exact running_never_faults.2 _ _ (2 ^ 64 - 1) (by decide) (by decide)

end WordMachine
