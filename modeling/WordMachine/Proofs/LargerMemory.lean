import WordMachine.Catalog.Standard
import WordMachine.Proofs.Contents
import WordMachine.Proofs.Invariants
import WordMachine.Proofs.Lockstep

namespace WordMachine

def Trap.OutOfRange (t : Trap) : Prop := ∃ address, t = .address (.outOfRange address)

def ExecutionError.OutOfRange (e : ExecutionError) : Prop :=
  ∃ mnemonic operands address, e = .address mnemonic operands (.outOfRange address)

theorem Trap.OutOfRange.explain {t : Trap} (h : t.OutOfRange) (i : Instruction)
    (operands : List Word) : (i.explain operands t).OutOfRange := by
  obtain ⟨address, rfl⟩ := h
  exact ⟨i.mnemonic, operands, address, rfl⟩

/-- The second memory is the first one with these bytes added at its end. -/
structure Memory.Extended (more : Array Byte) (m m' : Memory) : Prop where
  base : m'.base = m.base
  order : m'.order = m.order
  bytes : m'.bytes = m.bytes ++ more

namespace Memory.Extended

variable {more : Array Byte} {m m' : Memory} (h : Extended more m m')
include h

theorem size : m'.size = m.size + more.size := by
  rw [Memory.size, Memory.size, h.bytes, Array.size_append]

theorem byteAt {offset : Nat} (hlt : offset < m.size) : m'.byteAt offset = m.byteAt offset := by
  rw [Memory.byteAt, Memory.byteAt, h.bytes, Array.getElem?_append_left hlt]

theorem wordAt {offset : Nat} (hfits : offset + 4 ≤ m.size) :
    m'.wordAt offset = m.wordAt offset :=
  wordAt_congr h.order fun i hi => h.byteAt (by omega)

theorem setWordAt {offset : Nat} (hfits : offset + 4 ≤ m.size) (w : Word) :
    Extended more (m.setWordAt offset w) (m'.setWordAt offset w) where
  base := by rw [base_setWordAt, base_setWordAt, h.base]
  order := by rw [order_setWordAt, order_setWordAt, h.order]
  bytes := by
    simp only [Memory.size] at hfits
    simp only [Memory.setWordAt, h.order, h.bytes]
    rw [Array.setIfInBounds_append_left, Array.setIfInBounds_append_left,
      Array.setIfInBounds_append_left, Array.setIfInBounds_append_left]
    all_goals grind

/-- A word in reach keeps its offset, and a misaligned address is one in any memory. -/
theorem locate (address : Word) :
    m.locate address = .error (.outOfRange address) ∨ m'.locate address = m.locate address := by
  cases hl : m.locate address with
  | ok offset =>
    obtain ⟨haligned, hbase, hfits⟩ := locate_eq_ok_iff.mp hl
    refine .inr (locate_eq_ok_iff.mpr ⟨haligned, ?_, ?_⟩)
    · rw [h.base, hbase]
    · rw [h.size]
      omega
  | error e =>
    rcases locate_eq_error_iff.mp hl with hmisaligned | ⟨-, -, rfl⟩
    · exact .inr (locate_eq_error_iff.mpr (.inl hmisaligned))
    · exact .inl rfl

end Memory.Extended

structure Machine.Extended (more : Array Byte) (m m' : Machine) : Prop where
  registers : m'.registers = m.registers
  memory : m.memory.Extended more m'.memory

namespace Work

variable (more : Array Byte)

open Machine (Extended)

theorem register_extended (index : Word) : (register index).Respects (Extended more) := by
  intro m m' h
  exact ⟨by simp only [register, h.registers], rfl, h⟩

theorem setRegister_extended (index value : Word) :
    (setRegister index value).Respects (Extended more) := by
  intro m m' h
  simp only [setRegister, h.registers]
  exact ⟨rfl, rfl, rfl, h.memory⟩

theorem word_extended (address : Word) :
    (word address).RespectsUnless Trap.OutOfRange (Extended more) := by
  intro m m' h
  rcases h.memory.locate address with hl | hl
  · exact .inl ⟨_, ⟨address, rfl⟩, by rw [word_error hl]⟩
  · refine .inr ?_
    cases hm : m.memory.locate address with
    | error e =>
      rw [word_error hm, word_error (hl.trans hm)]
      exact ⟨rfl, rfl, h⟩
    | ok offset =>
      rw [word_ok hm, word_ok (hl.trans hm), h.memory.wordAt (Memory.locate_eq_ok_iff.mp hm).2.2]
      exact ⟨rfl, rfl, h⟩

theorem setWord_extended (address value : Word) :
    (setWord address value).RespectsUnless Trap.OutOfRange (Extended more) := by
  intro m m' h
  rcases h.memory.locate address with hl | hl
  · exact .inl ⟨_, ⟨address, rfl⟩, by rw [setWord_error hl]⟩
  · refine .inr ?_
    cases hm : m.memory.locate address with
    | error e =>
      rw [setWord_error hm, setWord_error (hl.trans hm)]
      exact ⟨rfl, rfl, h⟩
    | ok offset =>
      rw [setWord_ok hm, setWord_ok (hl.trans hm)]
      exact ⟨rfl, rfl, h.registers, h.memory.setWordAt (Memory.locate_eq_ok_iff.mp hm).2.2 value⟩

end Work

theorem Machine.Extended.execute {more : Array Byte} {m m' : Machine} (h : m.Extended more m')
    (s : Statement) :
    Outcome.AgreeUnless ExecutionError.OutOfRange (Extended more) (s.execute m) (s.execute m') := by
  have hexcepted (t : Trap) (ht : t.OutOfRange) :
      (s.instruction.explain s.operands t).OutOfRange :=
    ht.explain s.instruction s.operands
  refine Instruction.execute_agreeUnless hexcepted ?_ h
  apply Action.perform_respectsUnless (fun index => (Work.register_extended more index).unless)
    (Work.word_extended more) (Work.setWord_extended more)
  intro target _ value
  exact (Work.setRegister_extended more target value).unless

theorem Program.size_run (p : Program) (m : Machine) (limit : Nat) :
    (p.run m limit).state.memory.size = m.memory.size := by
  let c : Config := ⟨m.registers.zero, m.memory.base, m.memory.size, m.memory.order⟩
  exact ((Machine.invariant_builtAs c).resume p limit (r := { machine := m })
    ⟨rfl, rfl, rfl, rfl⟩).size

/-- Unless a run fails at an address out of range, it goes the same way with bytes added at the end
of memory: it has the same result and the same log, and leaves the registers and the bytes that it
would have left, followed by the added ones as they were. -/
theorem Program.run_extended {p : Program} {m m' : Machine} {more : Array Byte}
    (extended : m.Extended more m') {limit : Nat}
    (inRange : ∀ e, (p.run m limit).result = .error e → ¬ e.OutOfRange) :
    (p.run m' limit).result = (p.run m limit).result ∧
      (p.run m' limit).log = (p.run m limit).log ∧
      (p.run m limit).state.Extended more (p.run m' limit).state ∧
      (p.run m limit).state.memory.size = m.memory.size := by
  have hexecute : ∀ s ∈ p, ∀ m m', m.Extended more m' →
      Outcome.AgreeUnless ExecutionError.OutOfRange (Machine.Extended more)
        (s.execute m) (s.execute m') :=
    fun s _ _ _ h => h.execute s
  obtain ⟨hresult, hlog, hstate⟩ := (run_agreeUnless hexecute extended limit).agree inRange
  exact ⟨hresult.symm, hlog.symm, hstate, p.size_run m limit⟩

/-- A store that fits, and then a load that is misaligned in any memory. -/
theorem Program.run_extended_misaligned :
    ∃ (p : Program) (m m' : Machine), m.Extended #[5, 6] m' ∧
      (∀ e, (p.run m 9).result = .error e → ¬ e.OutOfRange) ∧
      (p.run m 9).state.memory.bytes = #[7, 0, 0, 0] ∧
      (p.run m' 9).result = .error (.address "LD" [2, 0, 3] (.misaligned 3)) ∧
      (p.run m' 9).state.memory.bytes = #[7, 0, 0, 0, 5, 6] := by
  let p : Program := #[⟨.st, [1, 0, 0]⟩, ⟨.ld, [2, 0, 3]⟩]
  let registers : Registers := (Registers.init .hardwired).set 1 7
  let m : Machine := ⟨registers, ⟨0, .little, #[1, 2, 3, 4]⟩⟩
  let m' : Machine := ⟨registers, ⟨0, .little, #[1, 2, 3, 4, 5, 6]⟩⟩
  have hextended : m.Extended #[5, 6] m' := ⟨rfl, rfl, rfl, rfl⟩
  have hresult : (p.run m 9).result = .error (.address "LD" [2, 0, 3] (.misaligned 3)) := by
    unfold p m registers
    rfl
  have hbytes : (p.run m 9).state.memory.bytes = #[7, 0, 0, 0] := by
    unfold p m registers
    rfl
  have hrange : ∀ e, (p.run m 9).result = .error e → ¬ e.OutOfRange := by
    rintro e he ⟨mnemonic, operands, address, rfl⟩
    rw [hresult] at he
    cases he
  obtain ⟨hsame, -, hstate, -⟩ := run_extended hextended hrange
  refine ⟨p, m, m', hextended, hrange, hbytes, hsame.trans hresult, ?_⟩
  rw [hstate.memory.bytes, hbytes]
  rfl

end WordMachine
