import WordMachine.Catalog.Standard
import WordMachine.Proofs.Footprint

namespace WordMachine

/-- Equal machines but for this register, which has the one value in the first and the other in the
second. -/
structure Machine.SameBut (r : Register) (v v' : Word) (m m' : Machine) : Prop where
  zero : m.registers.zero = m'.registers.zero
  left : m.registers.get r = v
  right : m'.registers.get r = v'
  others : ∀ s, s ≠ r → m.registers.get s = m'.registers.get s
  memory : m.memory = m'.memory

/-- The statement has no operand that names the register. Literals may be its number. -/
def Statement.Omits (s : Statement) (r : Register) : Prop :=
  ∀ index ∈ s.operands.take s.instruction.operation.action.registerCount, index.toNat ≠ r.val

namespace Machine.SameBut

variable {r : Register} {v v' : Word} {m m' : Machine} (h : SameBut r v v' m m')
include h

theorem register {index : Word} (hne : index.toNat ≠ r.val) :
    m.register index = m'.register index := by
  refine register_congr fun s hs => h.others s ?_
  rintro rfl
  exact hne hs

theorem set {s : Register} (hne : s ≠ r) (value : Word) :
    SameBut r v v' { m with registers := m.registers.set s value }
      { m' with registers := m'.registers.set s value } where
  zero := by simp only [Registers.zero_set, h.zero]
  left := by rw [Registers.get_set_of_ne _ hne.symm, h.left]
  right := by rw [Registers.get_set_of_ne _ hne.symm, h.right]
  others := by
    intro q hq
    rw [Registers.get_set, Registers.get_set, Registers.discards, Registers.discards, h.zero,
      h.others q hq]
  memory := h.memory

theorem apply {e : Effect} (hne : ∀ s value, e = .set s value → s ≠ r) :
    SameBut r v v' (e.apply m) (e.apply m') := by
  cases e with
  | set s value =>
    simp only [Effect.apply]
    exact h.set (hne s value rfl) value
  | store offset value =>
    simp only [Effect.apply, h.memory]
    exact ⟨h.zero, h.left, h.right, h.others, rfl⟩
  | branch target => exact h
  | pass => exact h

theorem execute {s : Statement} (omits : s.Omits r) :
    Outcome.Agree (SameBut r v v') (s.execute m) (s.execute m') := by
  apply Instruction.execute_agree_of_effect h h.zero
  case same =>
    apply Action.effect_congr
    case register => exact fun index hi => h.register (omits index (Action.named_of_source hi))
    case base => rw [h.memory]
    case size => rw [h.memory]
    case read => exact fun _ _ address _ => by rw [h.memory]
  case apply =>
    intro e he
    refine h.apply fun q value hset => ?_
    subst hset
    obtain ⟨target, htarget, hq⟩ := Action.target_of_set he
    rintro rfl
    exact omits target (Action.named_of_target htarget) hq

end Machine.SameBut

/-- A program neither reads nor changes a register that it does not name: with any two values there
it has the same result and the same log, leaves machines that are otherwise equal, and both values
where they were. -/
theorem Program.run_spares_unnamed {p : Program} {r : Register} (omits : ∀ s ∈ p, s.Omits r)
    {v v' : Word} {m m' : Machine} (same : m.SameBut r v v' m') (maxSteps : Nat) :
    Outcome.Agree (Machine.SameBut r v v') (p.run m maxSteps) (p.run m' maxSteps) :=
  run_agree (fun _ hs _ _ h => h.execute (omits _ hs)) same maxSteps

/-- The number of the register is a literal here, and it is the target of a branch, but no operand
names the register. -/
theorem Program.run_spares_unnamed_literal :
    ∃ (p : Program) (m m' : Machine), (∀ s ∈ p, s.Omits 3) ∧ m.SameBut 3 5 9 m' ∧
      (p.run m 9).result = .ok 3 ∧ (p.run m' 9).result = .ok 3 ∧
      (p.run m' 9).state.registers.get 1 = 4 ∧
      (p.run m 9).state.registers.get 3 = 5 ∧ (p.run m' 9).state.registers.get 3 = 9 := by
  let p : Program := #[⟨.addi, [1, 1, 3]⟩, ⟨.grub, [2, 3]⟩, ⟨.beq, [1, 2, 3]⟩]
  let registers : Registers := (Registers.init .hardwired).set 1 1
  let m : Machine := ⟨registers.set 3 5, ⟨0, .little, #[]⟩⟩
  let m' : Machine := ⟨registers.set 3 9, ⟨0, .little, #[]⟩⟩
  have homits : ∀ s ∈ p, s.Omits 3 := by
    intro s hs
    obtain rfl | rfl | rfl :
        s = ⟨.addi, [1, 1, 3]⟩ ∨ s = ⟨.grub, [2, 3]⟩ ∨ s = ⟨.beq, [1, 2, 3]⟩ := by
      simpa [p] using hs
    · change ∀ index ∈ [(1 : Word), 1], index.toNat ≠ 3
      simp
    · change ∀ index ∈ [(2 : Word)], index.toNat ≠ 3
      simp
    · change ∀ index ∈ [(1 : Word), 2], index.toNat ≠ 3
      simp
  have hsame : m.SameBut 3 5 9 m' := by
    refine ⟨rfl, rfl, rfl, fun s hs => ?_, rfl⟩
    exact (Registers.get_set_of_ne _ hs 5).trans (Registers.get_set_of_ne _ hs 9).symm
  have hresult : (p.run m 9).result = .ok 3 := by
    unfold p m registers
    rfl
  have hcount : (p.run m 9).state.registers.get 1 = 4 := by
    unfold p m registers
    rfl
  obtain ⟨hagree, -, hstate⟩ := run_spares_unnamed homits hsame 9
  exact ⟨p, m, m', homits, hsame, hresult, hagree.symm.trans hresult,
    (hstate.others 1 (by decide)).symm.trans hcount, hstate.left, hstate.right⟩

/-- Two memories of one extent. Each word in reach is the same in both, or still what it was in each
of them at the start. -/
structure Memory.SameOrKept (start start' m m' : Memory) : Prop where
  base : m.base = m'.base
  size : m.size = m'.size
  read : ∀ address, m.read address = m'.read address ∨
    m.read address = start.read address ∧ m'.read address = start'.read address

/-- Equal registers, and memories that may differ in what has not been written over. -/
structure Machine.SameOrKept (start start' : Memory) (m m' : Machine) : Prop where
  registers : m.registers = m'.registers
  memory : Memory.SameOrKept start start' m.memory m'.memory

theorem Memory.SameOrKept.setWordAt {start start' m m' : Memory}
    (h : SameOrKept start start' m m') {address : Word} {offset : Nat}
    (hl : m.locate address = .ok offset) (value : Word) :
    SameOrKept start start' (m.setWordAt offset value) (m'.setWordAt offset value) where
  base := by simp only [base_setWordAt, h.base]
  size := by simp only [size_setWordAt, h.size]
  read := by
    intro other
    have hl' : m'.locate address = .ok offset :=
      (locate_congr h.base h.size address).symm.trans hl
    rw [read_setWordAt hl, read_setWordAt hl']
    split
    · exact .inl rfl
    · exact h.read other

/-- No statement takes a value from memory. -/
def Program.LoadsNothing (p : Program) : Prop :=
  ∀ s ∈ p, s.instruction.operation ≠ .ld ∧ s.instruction.operation ≠ .loaded

namespace Machine.SameOrKept

variable {start start' : Memory} {m m' : Machine} (h : SameOrKept start start' m m')
include h

theorem apply {e : Effect}
    (stored : ∀ offset value, e = .store offset value →
      ∃ address, m.memory.locate address = .ok offset) :
    SameOrKept start start' (e.apply m) (e.apply m') := by
  cases e with
  | set r value =>
    simp only [Effect.apply, h.registers]
    exact ⟨rfl, h.memory⟩
  | store offset value =>
    obtain ⟨address, hl⟩ := stored offset value rfl
    simp only [Effect.apply]
    exact ⟨h.registers, h.memory.setWordAt hl value⟩
  | branch target => exact h
  | pass => exact h

theorem execute {s : Statement} (ld : s.instruction.operation ≠ .ld)
    (loaded : s.instruction.operation ≠ .loaded) :
    Outcome.Agree (SameOrKept start start') (s.execute m) (s.execute m') := by
  apply Instruction.execute_agree_of_effect h (congrArg _ h.registers)
  case same =>
    apply Action.effect_congr
    case register => exact fun index _ => register_congr fun r _ => by rw [h.registers]
    case base => exact h.memory.base
    case size => exact h.memory.size
    case read =>
      intro f hload
      rcases Operation.of_action_eq_load hload with ho | ho
      · exact absurd ho ld
      · exact absurd ho loaded
  case apply =>
    intro e he
    refine h.apply fun offset value hstore => ?_
    subst hstore
    obtain ⟨-, address, -, hl⟩ := Action.address_of_store he
    exact ⟨address, hl⟩

end Machine.SameOrKept

/-- A program that loads nothing does not depend on what memory holds: on machines with equal
registers and memories of one extent it has the same result and the same log, and leaves equal
registers. Each word in reach is then the same in both memories, or in each what it was before. -/
theorem Program.run_ignores_memory {p : Program} (loadsNothing : p.LoadsNothing) {m m' : Machine}
    (registers : m.registers = m'.registers) (base : m.memory.base = m'.memory.base)
    (size : m.memory.size = m'.memory.size) (maxSteps : Nat) :
    let final := p.run m maxSteps
    let final' := p.run m' maxSteps
    final.result = final'.result ∧ final.log = final'.log ∧
      final.state.registers = final'.state.registers ∧
      ∀ address, final.state.memory.read address = final'.state.memory.read address ∨
        final.state.memory.read address = m.memory.read address ∧
          final'.state.memory.read address = m'.memory.read address := by
  have hstart : m.SameOrKept m.memory m'.memory m' :=
    ⟨registers, base, size, fun _ => .inr ⟨rfl, rfl⟩⟩
  obtain ⟨hresult, hlog, hstate⟩ := run_agree (p := p)
    (fun s hs _ _ h => h.execute (loadsNothing s hs).1 (loadsNothing s hs).2) hstart maxSteps
  exact ⟨hresult, hlog, hstate.registers, hstate.memory.read⟩

/-- A loop that stores one word again and again, in memories of either byte order. -/
theorem Program.run_ignores_memory_loop :
    ∃ (p : Program) (m m' : Machine), p.LoadsNothing ∧ m.registers = m'.registers ∧
      m.memory.base = m'.memory.base ∧ m.memory.size = m'.memory.size ∧
      (p.run m' 9).result = .ok 9 ∧
      (p.run m 9).state.memory.bytes = #[7, 0, 0, 0, 5, 6, 7, 8] ∧
      (p.run m' 9).state.memory.bytes = #[0, 0, 0, 7, 1, 1, 1, 1] ∧
      (p.run m' 9).state.registers = (p.run m 9).state.registers := by
  let p : Program := #[⟨.st, [1, 0, 0]⟩, ⟨.beq, [0, 0, -2]⟩]
  let registers : Registers := (Registers.init .hardwired).set 1 7
  let m : Machine := ⟨registers, ⟨0, .little, #[1, 2, 3, 4, 5, 6, 7, 8]⟩⟩
  let m' : Machine := ⟨registers, ⟨0, .big, #[9, 9, 9, 9, 1, 1, 1, 1]⟩⟩
  have hloads : p.LoadsNothing := by
    unfold p Program.LoadsNothing
    decide
  have hresult : (p.run m 9).result = .ok 9 := by
    unfold p m registers
    rfl
  have hbytes : (p.run m 9).state.memory.bytes = #[7, 0, 0, 0, 5, 6, 7, 8] := by
    unfold p m registers
    rfl
  have hbytes' : (p.run m' 9).state.memory.bytes = #[0, 0, 0, 7, 1, 1, 1, 1] := by
    unfold p m' registers
    rfl
  obtain ⟨hsame, -, hregisters, -⟩ :=
    run_ignores_memory hloads (show m.registers = m'.registers from rfl) rfl rfl 9
  exact ⟨p, m, m', hloads, rfl, rfl, rfl, hsame.symm.trans hresult, hbytes, hbytes',
    hregisters.symm⟩

end WordMachine
