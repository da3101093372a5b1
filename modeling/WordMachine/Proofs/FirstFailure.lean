import WordMachine.Proofs.InstructionTable

namespace WordMachine

/-- One thing that is checked before an instruction changes anything. A register is named by the
operand at a position. -/
inductive Check
  | operandCount
  | register (position : Nat)
  | alignment
  | range
  deriving DecidableEq

def Operation.checks : Operation → List Check
  | .add | .sub | .and | .or | .xor => [.operandCount, .register 1, .register 2, .register 0]
  | .tripled | .deep | .prim | .addi => [.operandCount, .register 1, .register 0]
  | .grub => [.operandCount, .register 0]
  | .beq => [.operandCount, .register 0, .register 1]
  | .ld | .loaded => [.operandCount, .register 1, .alignment, .range, .register 0]
  | .st => [.operandCount, .register 0, .register 1, .alignment, .range]

/-- The address of a load or a store, from the base register and the displacement that its last two
operands give. There is none if the base is no register. -/
def Machine.Addresses (m : Machine) (operands : List Word) (address : Word) : Prop :=
  ∃ base displacement start, operands[1]? = some base ∧ operands[2]? = some displacement ∧
    m.Holds base start ∧ start.displaced displacement = address

/-- The instruction does not pass this check, and the error says why. -/
inductive Check.Fails (i : Instruction) (operands : List Word) (m : Machine) :
    Check → ExecutionError → Prop
  | operandCount (wrong : operands.length ≠ i.arity) :
      Fails i operands m .operandCount (.operandCount ⟨i.mnemonic, i.arity, operands.length⟩)
  | register {position : Nat} {index : Word} (operand : operands[position]? = some index)
      (invalid : index.toInt < 0 ∨ 31 < index.toInt) :
      Fails i operands m (.register position) (.register i.mnemonic ⟨index⟩)
  | alignment {address : Word} (addressed : m.Addresses operands address)
      (misaligned : address.toNat % 4 ≠ 0) :
      Fails i operands m .alignment (.address i.mnemonic operands (.misaligned address))
  | range {address : Word} (addressed : m.Addresses operands address)
      (outside : address.toNat < m.memory.base.toNat ∨
        m.memory.base.toNat + m.memory.size < address.toNat + 4) :
      Fails i operands m .range (.address i.mnemonic operands (.outOfRange address))

/-- The first of these checks that fails, fails with this error. -/
inductive FirstFailure (i : Instruction) (operands : List Word) (m : Machine) :
    List Check → ExecutionError → Prop
  | here {c : Check} {later : List Check} {e : ExecutionError} (failure : c.Fails i operands m e) :
      FirstFailure i operands m (c :: later) e
  | later {c : Check} {later : List Check} {e : ExecutionError}
      (passed : ∀ e', ¬ c.Fails i operands m e') (failure : FirstFailure i operands m later e) :
      FirstFailure i operands m (c :: later) e

variable {i : Instruction} {operands : List Word} {m : Machine}

namespace Machine

theorem Holds.unique {index v w : Word} (hv : m.Holds index v) (hw : m.Holds index w) : v = w := by
  rw [← register_eq_ok_iff] at hv hw
  exact Except.ok.inj (hv.symm.trans hw)

theorem Addresses.unique {a b : Word} (ha : m.Addresses operands a) (hb : m.Addresses operands b) :
    a = b := by
  obtain ⟨base, displacement, start, hbase, hdisplacement, hs, rfl⟩ := ha
  obtain ⟨base', displacement', start', hbase', hdisplacement', hs', rfl⟩ := hb
  obtain rfl := Option.some.inj (hbase.symm.trans hbase')
  obtain rfl := Option.some.inj (hdisplacement.symm.trans hdisplacement')
  rw [hs.unique hs']

end Machine

namespace Check

variable {c : Check} {e : ExecutionError}

theorem fails_operandCount_iff :
    operandCount.Fails i operands m e ↔
      operands.length ≠ i.arity ∧ e = .operandCount (i.arityError operands) := by
  constructor
  · intro h
    cases h with
    | operandCount wrong => exact ⟨wrong, rfl⟩
  · rintro ⟨wrong, rfl⟩
    exact .operandCount wrong

theorem fails_register_iff {position : Nat} {index : Word}
    (operand : operands[position]? = some index) :
    (register position).Fails i operands m e ↔
      (index.toInt < 0 ∨ 31 < index.toInt) ∧ e = .register i.mnemonic ⟨index⟩ := by
  constructor
  · intro h
    cases h with
    | register operand' invalid =>
      obtain rfl := Option.some.inj (operand.symm.trans operand')
      exact ⟨invalid, rfl⟩
  · rintro ⟨invalid, rfl⟩
    exact .register operand invalid

theorem fails_alignment_iff {address : Word} (addressed : m.Addresses operands address) :
    alignment.Fails i operands m e ↔
      address.toNat % 4 ≠ 0 ∧ e = .address i.mnemonic operands (.misaligned address) := by
  constructor
  · intro h
    cases h with
    | alignment addressed' misaligned =>
      obtain rfl := addressed.unique addressed'
      exact ⟨misaligned, rfl⟩
  · rintro ⟨misaligned, rfl⟩
    exact .alignment addressed misaligned

theorem fails_range_iff {address : Word} (addressed : m.Addresses operands address) :
    range.Fails i operands m e ↔
      (address.toNat < m.memory.base.toNat ∨
        m.memory.base.toNat + m.memory.size < address.toNat + 4) ∧
        e = .address i.mnemonic operands (.outOfRange address) := by
  constructor
  · intro h
    cases h with
    | range addressed' outside =>
      obtain rfl := addressed.unique addressed'
      exact ⟨outside, rfl⟩
  · rintro ⟨outside, rfl⟩
    exact .range addressed outside

theorem Fails.names (h : c.Fails i operands m e) :
    e.mnemonic = i.mnemonic ∧
      ∀ mnemonic listed cause, e = .address mnemonic listed cause → listed = operands := by
  cases h with
  | operandCount => exact ⟨rfl, nofun⟩
  | register => exact ⟨rfl, nofun⟩
  | alignment =>
    refine ⟨rfl, ?_⟩
    rintro _ _ _ ⟨⟩
    rfl
  | range =>
    refine ⟨rfl, ?_⟩
    rintro _ _ _ ⟨⟩
    rfl

end Check

namespace FirstFailure

variable {c : Check} {cs ds : List Check} {e : ExecutionError}

theorem not_nil : ¬ FirstFailure i operands m [] e := nofun

theorem cons_iff :
    FirstFailure i operands m (c :: cs) e ↔
      c.Fails i operands m e ∨
        (∀ e', ¬ c.Fails i operands m e') ∧ FirstFailure i operands m cs e := by
  constructor
  · intro h
    cases h with
    | here failure => exact .inl failure
    | later passed failure => exact .inr ⟨passed, failure⟩
  · rintro (failure | ⟨passed, failure⟩)
    · exact .here failure
    · exact .later passed failure

theorem singleton_iff : FirstFailure i operands m [c] e ↔ c.Fails i operands m e := by
  simp [cons_iff, not_nil]

/-- The checks of a second list matter only if no check of the first one fails. -/
theorem append_iff :
    FirstFailure i operands m (cs ++ ds) e ↔
      FirstFailure i operands m cs e ∨
        (∀ e', ¬ FirstFailure i operands m cs e') ∧ FirstFailure i operands m ds e := by
  induction cs with
  | nil => simp [not_nil]
  | cons c cs ih =>
    simp only [List.cons_append, cons_iff, ih]
    grind

theorem exists_iff :
    (∃ e, FirstFailure i operands m cs e) ↔ ∃ c ∈ cs, ∃ e, c.Fails i operands m e := by
  induction cs with
  | nil => simp [not_nil]
  | cons c cs ih =>
    simp only [cons_iff, List.exists_mem_cons_iff, exists_or, exists_and_left, ih]
    grind

theorem exists_fails (h : FirstFailure i operands m cs e) : ∃ c ∈ cs, c.Fails i operands m e := by
  induction h with
  | @here c _ _ failure => exact ⟨c, List.mem_cons_self, failure⟩
  | later _ _ ih =>
    obtain ⟨c, hc, failure⟩ := ih
    exact ⟨c, List.mem_cons_of_mem _ hc, failure⟩

end FirstFailure

/-- A look at the machine that fails exactly as the first of these checks that fails. -/
def Enforces (i : Instruction) (operands : List Word) (m : Machine) {α : Type}
    (checks : List Check) (look : Except Trap α) : Prop :=
  ∀ e, look.mapError (i.explain operands) = .error e ↔ FirstFailure i operands m checks e

namespace Enforces

theorem ok {α : Type} (a : α) : Enforces i operands m [] (.ok a) := by
  intro e
  rw [mapError_ok]
  exact ⟨nofun, nofun⟩

theorem bind {α β : Type} {cs ds : List Check} {first : Except Trap α} {next : α → Except Trap β}
    (hfirst : Enforces i operands m cs first)
    (hnext : ∀ a, first = .ok a → Enforces i operands m ds (next a)) :
    Enforces i operands m (cs ++ ds) (first >>= next) := by
  intro e
  rw [FirstFailure.append_iff]
  cases hf : first with
  | error t =>
    have hstopped : FirstFailure i operands m cs (i.explain operands t) :=
      (hfirst _).mp (by rw [hf, mapError_error])
    have hrest : (Except.error t >>= next) = Except.error t := rfl
    simp only [← hfirst e, hf, hrest, mapError_error, Except.error.injEq]
    constructor
    · exact .inl
    · rintro (h | ⟨passed, -⟩)
      · exact h
      · exact absurd hstopped (passed _)
  | ok a =>
    have hpassed : ∀ e', ¬ FirstFailure i operands m cs e' := by
      intro e' he'
      rw [← hfirst e', hf] at he'
      cases he'
    rw [← hnext a hf e]
    constructor
    · exact fun h => .inr ⟨hpassed, h⟩
    · rintro (h | ⟨-, h⟩)
      · exact absurd h (hpassed e)
      · exact h

theorem destination {position : Nat} {index : Word} (operand : operands[position]? = some index) :
    Enforces i operands m [.register position] (destination index) := by
  intro e
  rw [FirstFailure.singleton_iff, Check.fails_register_iff operand, WordMachine.destination]
  simp only [mapError_eq_error_iff, Register.ofIndex_eq_error_iff]
  constructor
  · rintro ⟨_, ⟨_, ⟨invalid, rfl⟩, rfl⟩, rfl⟩
    exact ⟨invalid, rfl⟩
  · rintro ⟨invalid, rfl⟩
    exact ⟨_, ⟨_, ⟨invalid, rfl⟩, rfl⟩, rfl⟩

theorem register {position : Nat} {index : Word} (operand : operands[position]? = some index) :
    Enforces i operands m [.register position] (m.register index) := by
  intro e
  rw [← destination operand e]
  unfold Machine.register Registers.read WordMachine.destination
  cases Register.ofIndex index <;> simp

theorem memory {address : Word} (addressed : m.Addresses operands address) :
    Enforces i operands m [.alignment, .range]
      ((m.memory.locate address).mapError .address) := by
  intro e
  simp only [FirstFailure.cons_iff, FirstFailure.not_nil, Check.fails_alignment_iff addressed,
    Check.fails_range_iff addressed, mapError_eq_error_iff, Memory.locate_eq_error_iff]
  constructor
  · rintro ⟨_, ⟨_, ⟨misaligned, rfl⟩ | ⟨aligned, outside, rfl⟩, rfl⟩, rfl⟩
    · exact .inl ⟨misaligned, rfl⟩
    · exact .inr ⟨fun _ h => h.1 aligned, .inl ⟨outside, rfl⟩⟩
  · rintro (⟨misaligned, rfl⟩ | ⟨aligned, ⟨outside, rfl⟩ | ⟨-, ⟨⟩⟩⟩)
    · exact ⟨_, ⟨_, .inl ⟨misaligned, rfl⟩, rfl⟩, rfl⟩
    · have haligned : address.toNat % 4 = 0 := by
        by_contra hmisaligned
        exact aligned _ ⟨hmisaligned, rfl⟩
      exact ⟨_, ⟨_, .inr ⟨haligned, outside, rfl⟩, rfl⟩, rfl⟩

theorem locate {base displacement : Word} (hbase : operands[1]? = some base)
    (hdisplacement : operands[2]? = some displacement) :
    Enforces i operands m [.register 1, .alignment, .range] (m.locate base displacement) := by
  refine (register hbase).bind fun start hstart => memory ?_
  exact ⟨base, displacement, start, hbase, hdisplacement,
    Machine.register_eq_ok_iff.mp hstart, (Word.add_signExtendLow _ _).symm⟩

end Enforces

def Action.checks : Action → List Check
  | .binary _ => [.register 1, .register 2, .register 0]
  | .unary _ | .immediate _ => [.register 1, .register 0]
  | .constant _ => [.register 0]
  | .load _ => [.register 1, .alignment, .range, .register 0]
  | .store => [.register 0, .register 1, .alignment, .range]
  | .branch => [.register 0, .register 1]

theorem Operation.checks_eq (o : Operation) : o.checks = .operandCount :: o.action.checks := by
  cases o <;> rfl

theorem Action.effect_enforces (a : Action) (hl : operands.length = a.arity) :
    Enforces i operands m a.checks (a.effect m operands) := by
  cases a with
  | binary f =>
    obtain ⟨target, first, second, rfl⟩ := List.length_eq_three.mp hl
    exact (Enforces.register rfl).bind fun _ _ => (Enforces.register rfl).bind fun _ _ =>
      (Enforces.destination rfl).bind fun _ _ => .ok _
  | unary f =>
    obtain ⟨target, source, rfl⟩ := List.length_eq_two.mp hl
    exact (Enforces.register rfl).bind fun _ _ => (Enforces.destination rfl).bind fun _ _ => .ok _
  | immediate f =>
    obtain ⟨target, source, literal, rfl⟩ := List.length_eq_three.mp hl
    exact (Enforces.register rfl).bind fun _ _ => (Enforces.destination rfl).bind fun _ _ => .ok _
  | constant f =>
    obtain ⟨target, literal, rfl⟩ := List.length_eq_two.mp hl
    exact (Enforces.destination rfl).bind fun _ _ => .ok _
  | load f =>
    obtain ⟨target, base, displacement, rfl⟩ := List.length_eq_three.mp hl
    exact (Enforces.locate rfl rfl).bind fun _ _ => (Enforces.destination rfl).bind fun _ _ => .ok _
  | store =>
    obtain ⟨source, base, displacement, rfl⟩ := List.length_eq_three.mp hl
    exact (Enforces.register rfl).bind fun _ _ => (Enforces.locate rfl rfl).bind fun _ _ => .ok _
  | branch =>
    obtain ⟨first, second, target, rfl⟩ := List.length_eq_three.mp hl
    exact (Enforces.register rfl).bind fun _ _ => (Enforces.register rfl).bind fun _ _ => .ok _

namespace Instruction

theorem execute_eq_error_iff {e : ExecutionError} :
    (i.execute operands m).result = .error e ↔
      (i.effect operands m).mapError (i.explain operands) = .error e := by
  constructor
  · intro h
    obtain ⟨t, ht, rfl⟩ := trap_of_error h
    rw [ht, mapError_error]
  · intro h
    obtain ⟨t, ht, rfl⟩ := mapError_eq_error_iff.mp h
    rw [execute_of_trap ht]

theorem effect_enforces (i : Instruction) (operands : List Word) (m : Machine) :
    Enforces i operands m i.operation.checks (i.effect operands m) := by
  intro e
  rw [Operation.checks_eq, FirstFailure.cons_iff, Check.fails_operandCount_iff, effect]
  by_cases hl : operands.length = i.arity
  · have hpassed : ∀ e', ¬ Check.operandCount.Fails i operands m e' :=
      fun e' he' => (Check.fails_operandCount_iff.mp he').1 hl
    rw [i.operation.action.effect_enforces hl e]
    exact ⟨fun h => .inr ⟨hpassed, h⟩, fun h => h.elim (fun h => absurd hl h.1) And.right⟩
  · have hfails : Check.operandCount.Fails i operands m _ :=
      Check.fails_operandCount_iff.mpr ⟨hl, rfl⟩
    rw [(i.operation.action.effect_eq_operandCount_iff m operands).mpr hl, mapError_error]
    constructor
    · intro h
      exact .inl ⟨hl, (Except.error.inj h).symm⟩
    · rintro (⟨-, rfl⟩ | ⟨hpassed, -⟩)
      · rfl
      · exact absurd hfails (hpassed _)

/-- An execution fails exactly if one of the operation's checks fails, and then with the error of
the first one that does. The error names the instruction, and one about an address lists all
operands. -/
theorem execute_reports_first_failure (i : Instruction) (operands : List Word) (m : Machine) :
    ((∃ e, (i.execute operands m).result = .error e) ↔
      ∃ c ∈ i.operation.checks, ∃ e, c.Fails i operands m e) ∧
    (∀ e, (i.execute operands m).result = .error e ↔
      FirstFailure i operands m i.operation.checks e) ∧
    ∀ e, (i.execute operands m).result = .error e →
      e.mnemonic = i.mnemonic ∧
        ∀ mnemonic listed cause, e = .address mnemonic listed cause → listed = operands := by
  have hfirst : ∀ e, (i.execute operands m).result = .error e ↔
      FirstFailure i operands m i.operation.checks e := by
    intro e
    rw [execute_eq_error_iff]
    exact i.effect_enforces operands m e
  refine ⟨?_, hfirst, fun e he => ?_⟩
  · simp only [hfirst]
    exact FirstFailure.exists_iff
  · obtain ⟨c, -, hc⟩ := ((hfirst e).mp he).exists_fails
    exact hc.names

end Instruction

end WordMachine
