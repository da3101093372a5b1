import WordMachine.Catalog.Standard
import WordMachine.Execution

namespace WordMachine

/-- The one change an instruction makes to a machine. -/
inductive Effect
  | set (r : Register) (value : Word)
  | store (offset : Nat) (value : Word)
  | branch (target : Word)
  | pass
  deriving DecidableEq

namespace Effect

def apply (m : Machine) : Effect → Machine
  | .set r value => { m with registers := m.registers.set r value }
  | .store offset value => { m with memory := m.memory.setWordAt offset value }
  | .branch _ | .pass => m

def events (m : Machine) : Effect → List Event
  | .set r value => m.registers.setEvents r value
  | .branch target => [.branchTaken target]
  | .store .. | .pass => []

def flow : Effect → Flow
  | .branch target => .branch target
  | .set .. | .store .. | .pass => .next

end Effect

/-- A trap leaves the machine alone, an effect is made. -/
def settle (m : Machine) : Except Trap Effect → Outcome Machine Trap Flow
  | .error trap => { result := .error trap, state := m }
  | .ok effect => { result := .ok effect.flow, state := effect.apply m, log := effect.events m }

namespace Machine

def register (m : Machine) (index : Word) : Except Trap Word :=
  (m.registers.read index).mapError .register

def locate (m : Machine) (base displacement : Word) : Except Trap Nat := do
  let start ← m.register base
  (m.memory.locate (start + displacement.signExtendLow)).mapError .address

theorem register_ne_operandCount (m : Machine) (index : Word) :
    m.register index ≠ .error .operandCount := by
  unfold register
  cases m.registers.read index <;> nofun

theorem locate_ne_operandCount (m : Machine) (base displacement : Word) :
    m.locate base displacement ≠ .error .operandCount := by
  have h := m.register_ne_operandCount base
  unfold locate
  cases hr : m.register base with
  | error e => simpa [bind, Except.bind, hr] using h
  | ok start =>
    simp only [bind, Except.bind]
    cases m.memory.locate (start + displacement.signExtendLow) <;> nofun

end Machine

/-- The register an operand names as destination. It is looked at after all sources. -/
def destination (index : Word) : Except Trap Register :=
  (Register.ofIndex index).mapError .register

theorem destination_ne_operandCount (index : Word) :
    destination index ≠ .error .operandCount := by
  unfold destination
  cases Register.ofIndex index <;> nofun

def Action.effect (m : Machine) : Action → List Word → Except Trap Effect
  | .binary f, [target, first, second] => do
    let a ← m.register first
    let b ← m.register second
    return .set (← destination target) (f a b)
  | .unary f, [target, source] => do
    let a ← m.register source
    return .set (← destination target) (f a)
  | .immediate f, [target, source, literal] => do
    let a ← m.register source
    return .set (← destination target) (f a literal)
  | .constant f, [target, literal] => do
    return .set (← destination target) (f literal)
  | .load f, [target, base, displacement] => do
    let offset ← m.locate base displacement
    return .set (← destination target) (f (m.memory.wordAt offset))
  | .store, [source, base, displacement] => do
    let value ← m.register source
    return .store (← m.locate base displacement) value
  | .branch, [first, second, target] => do
    let a ← m.register first
    let b ← m.register second
    return if a = b then .branch target else .pass
  | _, _ => .error .operandCount

theorem Action.effect_eq_operandCount_iff (a : Action) (m : Machine) (operands : List Word) :
    a.effect m operands = .error .operandCount ↔ operands.length ≠ a.arity := by
  have hr := m.register_ne_operandCount
  have hl := m.locate_ne_operandCount
  have hd := destination_ne_operandCount
  rcases operands with _ | ⟨x, _ | ⟨y, _ | ⟨z, _ | ⟨w, rest⟩⟩⟩⟩ <;> cases a <;>
    simp [effect, arity, bind, Except.bind, pure, Except.pure] <;> grind

/-- The operands that name registers come first. One that follows them is a literal. -/
def Action.registerCount : Action → Nat
  | .binary _ => 3
  | .unary _ | .immediate _ | .load _ | .store | .branch => 2
  | .constant _ => 1

namespace Work

theorem bind_looked {α β : Type} {look : Work α} {next : α → Work β} {m : Machine} {a : α}
    (h : look m = { result := .ok a, state := m }) : (look >>= next) m = next a m := by
  simp only [bind, h, List.nil_append]

theorem bind_trapped {α β : Type} {look : Work α} {next : α → Work β} {m : Machine} {t : Trap}
    (h : look m = { result := .error t, state := m }) :
    (look >>= next) m = { result := .error t, state := m } := by
  simp only [bind, h]

theorem register_eq {m : Machine} {index : Word} {seen : Except Trap Word}
    (h : m.register index = seen) : register index m = { result := seen, state := m } := by
  subst h
  rfl

theorem register_settles {m : Machine} {index : Word} {next : Word → Work Flow}
    {rest : Word → Except Trap Effect} (h : ∀ a, next a m = settle m (rest a)) :
    (register index >>= next) m = settle m (m.register index >>= rest) := by
  cases hr : m.register index with
  | error t =>
    rw [bind_trapped (register_eq hr)]
    rfl
  | ok a =>
    rw [bind_looked (register_eq hr)]
    exact h a

/-- The destination is looked at before the register changes, so a bad one changes nothing. -/
theorem setRegister_settles (m : Machine) (target value : Word) :
    (do setRegister target value; return .next : Work Flow) m =
      settle m (do return .set (← destination target) value) := by
  simp only [bind, pure, setRegister, Registers.write, destination]
  cases Register.ofIndex target with
  | error e => rfl
  | ok r =>
    simp [settle, Except.bind, Except.pure, Effect.flow, Effect.apply,
      Effect.events]

theorem address_ok {m : Machine} {base displacement start : Word}
    (h : m.register base = .ok start) :
    address base displacement m =
      { result := .ok (start + displacement.signExtendLow), state := m } := by
  rw [address, bind_looked (register_eq h)]
  rfl

theorem address_error {m : Machine} {base displacement : Word} {t : Trap}
    (h : m.register base = .error t) :
    address base displacement m = { result := .error t, state := m } := by
  rw [address, bind_trapped (register_eq h)]

theorem word_ok {m : Machine} {address : Word} {offset : Nat}
    (h : m.memory.locate address = .ok offset) :
    word address m = { result := .ok (m.memory.wordAt offset), state := m } := by
  rw [word, Memory.read_ok h]
  rfl

theorem word_error {m : Machine} {address : Word} {e : AddressError}
    (h : m.memory.locate address = .error e) :
    word address m = { result := .error (.address e), state := m } := by
  rw [word, Memory.read_error h]
  rfl

theorem setWord_ok {m : Machine} {address : Word} {offset : Nat}
    (h : m.memory.locate address = .ok offset) (value : Word) :
    setWord address value m =
      { result := .ok (), state := { m with memory := m.memory.setWordAt offset value } } := by
  rw [setWord, Memory.write_ok h]
  rfl

theorem setWord_error {m : Machine} {address : Word} {e : AddressError}
    (h : m.memory.locate address = .error e) (value : Word) :
    setWord address value m = { result := .error (.address e), state := m } := by
  rw [setWord, Memory.write_error h]
  rfl

theorem word_settles {m : Machine} {base displacement : Word} {next : Word → Work Flow}
    {rest : Nat → Except Trap Effect}
    (h : ∀ offset, next (m.memory.wordAt offset) m = settle m (rest offset)) :
    (do let w ← word (← address base displacement); next w : Work Flow) m =
      settle m (m.locate base displacement >>= rest) := by
  unfold Machine.locate
  cases hr : m.register base with
  | error t =>
    rw [bind_trapped (address_error hr)]
    rfl
  | ok start =>
    rw [bind_looked (address_ok hr)]
    cases hl : m.memory.locate (start + displacement.signExtendLow) with
    | error e =>
      rw [bind_trapped (word_error hl)]
      simp [hl, bind, Except.bind, settle]
    | ok offset =>
      rw [bind_looked (word_ok hl)]
      simpa [hl, bind, Except.bind] using h offset

theorem setWord_settles (m : Machine) (base displacement value : Word) :
    (do setWord (← address base displacement) value; return .next : Work Flow) m =
      settle m (do return .store (← m.locate base displacement) value) := by
  unfold Machine.locate
  cases hr : m.register base with
  | error t =>
    rw [bind_trapped (address_error hr)]
    rfl
  | ok start =>
    rw [bind_looked (address_ok hr)]
    cases hl : m.memory.locate (start + displacement.signExtendLow) with
    | error e =>
      simp [bind, setWord_error hl, hl, Except.bind, settle]
    | ok offset =>
      simp [bind, pure, setWord_ok hl, hl, Except.bind, Except.pure, settle, Effect.flow,
        Effect.apply, Effect.events]

end Work

/-- Performing an action access by access is settling on its effect and making that. -/
theorem Action.perform_eq_settle (a : Action) (operands : List Word) (m : Machine) :
    a.perform operands m = settle m (a.effect m operands) := by
  cases a with
  | binary f =>
    match operands with
    | [] | [_] | [_, _] | _ :: _ :: _ :: _ :: _ => rfl
    | [target, first, second] =>
      refine Work.register_settles fun a => Work.register_settles fun b => ?_
      exact Work.setRegister_settles m target (f a b)
  | unary f =>
    match operands with
    | [] | [_] | _ :: _ :: _ :: _ => rfl
    | [target, source] =>
      refine Work.register_settles fun a => ?_
      exact Work.setRegister_settles m target (f a)
  | immediate f =>
    match operands with
    | [] | [_] | [_, _] | _ :: _ :: _ :: _ :: _ => rfl
    | [target, source, literal] =>
      refine Work.register_settles fun a => ?_
      exact Work.setRegister_settles m target (f a literal)
  | constant f =>
    match operands with
    | [] | [_] | _ :: _ :: _ :: _ => rfl
    | [target, literal] => exact Work.setRegister_settles m target (f literal)
  | load f =>
    match operands with
    | [] | [_] | [_, _] | _ :: _ :: _ :: _ :: _ => rfl
    | [target, base, displacement] =>
      refine Work.word_settles fun offset => ?_
      exact Work.setRegister_settles m target (f (m.memory.wordAt offset))
  | store =>
    match operands with
    | [] | [_] | [_, _] | _ :: _ :: _ :: _ :: _ => rfl
    | [source, base, displacement] =>
      refine Work.register_settles fun value => ?_
      exact Work.setWord_settles m base displacement value
  | branch =>
    match operands with
    | [] | [_] | [_, _] | _ :: _ :: _ :: _ :: _ => rfl
    | [first, second, target] =>
      refine Work.register_settles fun a => Work.register_settles fun b => ?_
      split <;> rfl

namespace Instruction

def effect (i : Instruction) (operands : List Word) (m : Machine) : Except Trap Effect :=
  i.operation.action.effect m operands

theorem execute_of_effect {i : Instruction} {operands : List Word} {m : Machine} {e : Effect}
    (h : i.effect operands m = .ok e) :
    i.execute operands m =
      { result := .ok e.flow, state := e.apply m
        log := i.startEvents operands ++ e.events m } := by
  rw [effect] at h
  simp [execute, Action.perform_eq_settle, h, settle]

theorem execute_of_trap {i : Instruction} {operands : List Word} {m : Machine} {t : Trap}
    (h : i.effect operands m = .error t) :
    i.execute operands m =
      { result := .error (i.explain operands t), state := m
        log := i.startEvents operands } := by
  rw [effect] at h
  simp [execute, Action.perform_eq_settle, h, settle]

theorem trap_of_error {i : Instruction} {operands : List Word} {m : Machine} {e : ExecutionError}
    (h : (i.execute operands m).result = .error e) :
    ∃ t, i.effect operands m = .error t ∧ e = i.explain operands t := by
  cases he : i.effect operands m with
  | error t =>
    rw [execute_of_trap he] at h
    cases h
    exact ⟨t, rfl, rfl⟩
  | ok effect =>
    rw [execute_of_effect he] at h
    cases h

/-- An instruction that fails leaves every register and every byte of memory as it found them,
wherever in its accesses it stops. -/
theorem execute_error_unchanged {i : Instruction} {operands : List Word} {m : Machine}
    {e : ExecutionError} (h : (i.execute operands m).result = .error e) :
    (i.execute operands m).state.registers = m.registers ∧
      (i.execute operands m).state.memory = m.memory := by
  obtain ⟨t, ht, -⟩ := trap_of_error h
  rw [execute_of_trap ht]
  exact ⟨rfl, rfl⟩

/-- A load that has read its word and then finds no register 32 to put it in. -/
theorem execute_error_unchanged_load :
    ∃ (i : Instruction) (m : Machine), i.operation = .ld ∧ m.memory.read 4 = .ok 7 ∧
      (i.execute [32, 0, 4] m).result = .error (.register "LD" ⟨32⟩) ∧
      (i.execute [32, 0, 4] m).state.registers = m.registers ∧
      (i.execute [32, 0, 4] m).state.memory = m.memory := by
  refine ⟨ld, ⟨.init .hardwired, ⟨0, .little, #[0, 0, 0, 0, 7, 0, 0, 0]⟩⟩, rfl, by rfl, ?_, ?_⟩
  · rfl
  · exact execute_error_unchanged (e := .register "LD" ⟨32⟩) rfl

end Instruction

end WordMachine
