import WordMachine.Proofs.Contents
import WordMachine.Proofs.Lockstep

namespace WordMachine

/-- The same words in reach. Out of reach, and in their bytes, the memories may differ. -/
structure Memory.SameWords (m m' : Memory) : Prop where
  base : m.base = m'.base
  size : m.size = m'.size
  wordAt : ∀ ⦃address offset⦄, m.locate address = .ok offset → m.wordAt offset = m'.wordAt offset

namespace Memory

theorem sameWords_init (base : Word) (size : Nat) (order order' : ByteOrder) :
    (init base size order).SameWords (init base size order') where
  base := rfl
  size := by simp [init, Memory.size]
  wordAt := by
    intro address offset _
    rw [wordAt_init, wordAt_init]

namespace SameWords

variable {m m' : Memory} (h : m.SameWords m')
include h

theorem locate (address : Word) : m.locate address = m'.locate address :=
  locate_congr h.base h.size address

theorem read (address : Word) : m.read address = m'.read address := by
  rw [Memory.read, Memory.read, ← h.locate address]
  cases hl : m.locate address with
  | error e => rfl
  | ok offset => exact congrArg Except.ok (h.wordAt hl)

theorem clear : m.clear.SameWords m'.clear := by
  rw [Memory.clear, Memory.clear, ← h.base, ← h.size]
  exact sameWords_init _ _ _ _

theorem setWordAt {address : Word} {offset : Nat} (hl : m.locate address = .ok offset)
    (value : Word) : (m.setWordAt offset value).SameWords (m'.setWordAt offset value) where
  base := by rw [base_setWordAt, base_setWordAt, h.base]
  size := by rw [size_setWordAt, size_setWordAt, h.size]
  wordAt := by
    intro other place hother
    have hl' : m'.locate address = .ok offset := (h.locate address).symm.trans hl
    refine wordAt_of_read (by simp [h.base]) (by simp [h.size]) hother ?_
    rw [read_setWordAt hl, read_setWordAt hl', h.read other]

/-- Each word is in reach of both memories or of neither, so both stop at the same one. -/
theorem writeAll (address : Word) (ws : List Word) :
    Outcome.Agree SameWords (m.writeAll address ws) (m'.writeAll address ws) := by
  induction ws generalizing m m' address with
  | nil => exact ⟨rfl, rfl, h⟩
  | cons w ws ih =>
    have hsame := h.locate address
    cases hl : m.locate address with
    | error e =>
      rw [writeAll_cons_of_error hl, writeAll_cons_of_error (hsame.symm.trans hl)]
      exact ⟨rfl, rfl, h⟩
    | ok offset =>
      rw [writeAll_cons_of_ok hl, writeAll_cons_of_ok (hsame.symm.trans hl)]
      exact ih (h.setWordAt hl w) (address + 4)

end SameWords

end Memory

structure Machine.SameWords (m m' : Machine) : Prop where
  registers : m.registers = m'.registers
  memory : m.memory.SameWords m'.memory

namespace Work

open Machine (SameWords)

theorem register_sameWords (index : Word) : (register index).Respects SameWords := by
  intro m m' h
  exact ⟨by simp only [register, h.registers], rfl, h⟩

theorem setRegister_sameWords (index value : Word) :
    (setRegister index value).Respects SameWords := by
  intro m m' h
  simp only [setRegister, h.registers]
  exact ⟨rfl, rfl, rfl, h.memory⟩

theorem word_sameWords (address : Word) : (word address).Respects SameWords := by
  intro m m' h
  exact ⟨by simp only [word, h.memory.read], rfl, h⟩

theorem setWord_sameWords (address value : Word) : (setWord address value).Respects SameWords := by
  intro m m' h
  have hsame := h.memory.locate address
  cases hl : m.memory.locate address with
  | error e =>
    rw [setWord_error hl, setWord_error (hsame.symm.trans hl)]
    exact ⟨rfl, rfl, h⟩
  | ok offset =>
    rw [setWord_ok hl, setWord_ok (hsame.symm.trans hl)]
    exact ⟨rfl, rfl, h.registers, h.memory.setWordAt hl value⟩

end Work

namespace Machine

namespace SameWords

variable {m m' : Machine} (h : m.SameWords m')
include h

theorem execute (i : Instruction) (operands : List Word) :
    Outcome.Agree SameWords (i.execute operands m) (i.execute operands m') := by
  apply Instruction.execute_agree _ h
  apply Action.perform_respects Work.register_sameWords Work.word_sameWords Work.setWord_sameWords
  intro target _ value
  exact Work.setRegister_sameWords target value

theorem load (address : Word) (ws : List Word) :
    Outcome.Agree SameWords (m.load address ws) (m'.load address ws) := by
  obtain ⟨hresult, hlog, hstate⟩ := h.memory.writeAll address ws
  simp only [Machine.load, ← hresult]
  cases (m.memory.writeAll address ws).result with
  | error e => exact ⟨rfl, rfl, h.registers, hstate⟩
  | ok _ => exact ⟨rfl, rfl, h.registers, hstate⟩

theorem perform (call : Call) :
    Outcome.Agree SameWords (call.perform m) (call.perform m') := by
  cases call with
  | setRegister index value => exact (Work.setRegister_sameWords index value h).recast _ _
  | register index => exact (Work.register_sameWords index h).recast _ _
  | word address => exact (Work.word_sameWords address h).recast _ _
  | setWord address value => exact (Work.setWord_sameWords address value h).recast _ _
  | load address words => exact (h.load address words).recast _ _
  | clear => exact ⟨rfl, rfl, h.registers, h.memory.clear⟩
  | reset => exact ⟨rfl, rfl, congrArg Registers.reset h.registers, h.memory.clear⟩
  | execute i operands => exact (h.execute i operands).recast _ _
  | run p maxSteps =>
    refine (Program.run_agree ?_ h maxSteps).recast _ _
    intro s _ m m' h
    exact h.execute s.instruction s.operands

end SameWords

theorem ofConfig_sameWords (c : Config) (order order' : ByteOrder) :
    (ofConfig { c with order }).SameWords (ofConfig { c with order := order' }) :=
  ⟨rfl, Memory.sameWords_init _ _ _ _⟩

/-- No session tells a machine from one with the bytes of its words the other way round. -/
theorem byteOrder_unobservable (c : Config) (calls : List Call) :
    let little := ofConfig { c with order := .little }
    let big := ofConfig { c with order := .big }
    little.replies calls = big.replies calls ∧
      (little.after calls).registers = (big.after calls).registers ∧
        ∀ address, (little.after calls).memory.read address =
          (big.after calls).memory.read address := by
  have hcalls : ∀ call ∈ calls, ∀ m m', SameWords m m' →
      Outcome.Agree SameWords (call.perform m) (call.perform m') := by
    intro call _ m m' h
    exact h.perform call
  obtain ⟨hreplies, hregisters, hmemory⟩ :=
    session_agree calls hcalls (ofConfig_sameWords c .little .big)
  exact ⟨hreplies, hregisters, hmemory.read⟩

/-- The bytes do tell. -/
example :
    ((ofConfig { size := 4, base := 0 }).after [.setWord 0 1]).memory.bytes = #[1, 0, 0, 0] ∧
      ((ofConfig { size := 4, base := 0, order := .big }).after [.setWord 0 1]).memory.bytes =
        #[0, 0, 0, 1] := by
  decide

end Machine

end WordMachine
