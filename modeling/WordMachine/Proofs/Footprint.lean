import WordMachine.Proofs.FirstFailure
import WordMachine.Proofs.Lockstep

namespace WordMachine

/-- The operands that name the registers an action reads. -/
def Action.sources : Action → List Word → List Word
  | .binary _, [_, first, second] => [first, second]
  | .unary _, [_, source] => [source]
  | .immediate _, [_, source, _] => [source]
  | .load _, [_, base, _] => [base]
  | .store, [source, base, _] => [source, base]
  | .branch, [first, second, _] => [first, second]
  | _, _ => []

theorem Action.named_of_source {a : Action} {operands : List Word} {index : Word}
    (h : index ∈ a.sources operands) : index ∈ operands.take a.registerCount := by
  rcases operands with _ | ⟨x, _ | ⟨y, _ | ⟨z, _ | ⟨w, rest⟩⟩⟩⟩ <;> cases a <;>
    simp_all [sources, registerCount]

theorem Action.named_of_target {a : Action} {operands : List Word} {index : Word}
    (h : index ∈ a.target? operands) : index ∈ operands.take a.registerCount := by
  rcases operands with _ | ⟨x, rest⟩ <;> cases a <;> simp_all [target?, registerCount]

theorem Operation.of_action_eq_load {o : Operation} {f : Word → Word} (h : o.action = .load f) :
    o = .ld ∨ o = .loaded := by
  cases o <;> simp [action] at h ⊢

namespace Machine

variable {m m' : Machine}

theorem register_congr {index : Word}
    (get : ∀ r : Register, index.toNat = r.val → m.registers.get r = m'.registers.get r) :
    m.register index = m'.register index := by
  unfold register Registers.read
  cases hr : Register.ofIndex index with
  | error e => rfl
  | ok r => exact congrArg Except.ok (get r (Register.ofIndex_eq_ok_iff.mp hr))

theorem locate_congr {index displacement : Word} (register : m.register index = m'.register index)
    (base : m.memory.base = m'.memory.base) (size : m.memory.size = m'.memory.size) :
    m.locate index displacement = m'.locate index displacement := by
  simp only [locate, register, Memory.locate_congr base size]

theorem addresses_of_locate {index displacement : Word} {offset : Nat}
    (h : m.locate index displacement = .ok offset) (target : Word) :
    ∃ address, m.Addresses [target, index, displacement] address ∧
      m.memory.locate address = .ok offset := by
  obtain ⟨start, hstart, hl⟩ := locate_eq_ok_iff.mp h
  rw [Word.add_signExtendLow] at hl
  exact ⟨_, ⟨index, displacement, start, rfl, rfl, hstart, rfl⟩, hl⟩

end Machine

namespace Action

variable {a : Action} {operands : List Word} {m m' : Machine}

/-- An action settles alike on machines that agree in what it looks at. -/
theorem effect_congr
    (register : ∀ index ∈ a.sources operands, m.register index = m'.register index)
    (base : m.memory.base = m'.memory.base) (size : m.memory.size = m'.memory.size)
    (read : ∀ f, a = .load f → ∀ address, m.Addresses operands address →
      m.memory.read address = m'.memory.read address) :
    a.effect m operands = a.effect m' operands := by
  by_cases hl : operands.length = a.arity
  · cases a with
    | binary f =>
      obtain ⟨target, first, second, rfl⟩ := List.length_eq_three.mp hl
      simp only [effect, register first (by simp [sources]), register second (by simp [sources])]
    | unary f =>
      obtain ⟨target, source, rfl⟩ := List.length_eq_two.mp hl
      simp only [effect, register source (by simp [sources])]
    | immediate f =>
      obtain ⟨target, source, literal, rfl⟩ := List.length_eq_three.mp hl
      simp only [effect, register source (by simp [sources])]
    | constant f =>
      obtain ⟨target, literal, rfl⟩ := List.length_eq_two.mp hl
      rfl
    | load f =>
      obtain ⟨target, index, displacement, rfl⟩ := List.length_eq_three.mp hl
      have hsame : m.locate index displacement = m'.locate index displacement :=
        Machine.locate_congr (register index (by simp [sources])) base size
      simp only [effect, ← hsame]
      cases hlocate : m.locate index displacement with
      | error t => rfl
      | ok offset =>
        obtain ⟨address, haddress, hoffset⟩ := Machine.addresses_of_locate hlocate target
        have hword : m.memory.wordAt offset = m'.memory.wordAt offset :=
          Memory.wordAt_of_read base size hoffset (read f rfl address haddress)
        simp only [bind, Except.bind, hword]
    | store =>
      obtain ⟨source, index, displacement, rfl⟩ := List.length_eq_three.mp hl
      simp only [effect, register source (by simp [sources]),
        Machine.locate_congr (register index (by simp [sources])) base size]
    | branch =>
      obtain ⟨first, second, target, rfl⟩ := List.length_eq_three.mp hl
      simp only [effect, register first (by simp [sources]), register second (by simp [sources])]
  · rw [(a.effect_eq_operandCount_iff m operands).mpr hl,
      (a.effect_eq_operandCount_iff m' operands).mpr hl]

theorem target_of_set {r : Register} {value : Word}
    (h : a.effect m operands = .ok (.set r value)) :
    ∃ target ∈ a.target? operands, target.toNat = r.val := by
  cases settles_of_effect h with
  | binary _ _ named => exact ⟨_, rfl, named⟩
  | unary _ named => exact ⟨_, rfl, named⟩
  | immediate _ named => exact ⟨_, rfl, named⟩
  | constant named => exact ⟨_, rfl, named⟩
  | load _ _ named => exact ⟨_, rfl, named⟩

theorem address_of_store {offset : Nat} {value : Word}
    (h : a.effect m operands = .ok (.store offset value)) :
    a = .store ∧ ∃ address, m.Addresses operands address ∧
      m.memory.locate address = .ok offset := by
  cases settles_of_effect h with
  | store _ hbase located =>
    rw [Word.add_signExtendLow] at located
    exact ⟨rfl, _, ⟨_, _, _, rfl, rfl, hbase, rfl⟩, located⟩

end Action

theorem Instruction.execute_agree_of_effect {R : Machine → Machine → Prop} {i : Instruction}
    {operands : List Word} {m m' : Machine} (h : R m m')
    (zero : m.registers.zero = m'.registers.zero)
    (same : i.effect operands m = i.effect operands m')
    (apply : ∀ e, i.effect operands m = .ok e → R (e.apply m) (e.apply m')) :
    Outcome.Agree R (i.execute operands m) (i.execute operands m') := by
  cases he : i.effect operands m with
  | error t =>
    rw [execute_of_trap he, execute_of_trap (same.symm.trans he)]
    exact ⟨rfl, rfl, h⟩
  | ok e =>
    have hevents : e.events m = e.events m' := by
      cases e <;> simp [Effect.events, Registers.setEvents, Registers.discards, zero]
    rw [execute_of_effect he, execute_of_effect (same.symm.trans he)]
    exact ⟨rfl, by rw [hevents], apply e he⟩

end WordMachine
