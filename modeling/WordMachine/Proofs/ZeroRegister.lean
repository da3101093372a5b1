import WordMachine.Proofs.Contents
import WordMachine.Proofs.Invariants
import WordMachine.Proofs.Lockstep

namespace WordMachine

namespace Machine

structure ZeroHardwired (m : Machine) : Prop where
  zero : m.registers.zero = .hardwired
  get : m.registers.get 0 = 0

theorem invariant_zeroHardwired : Invariant ZeroHardwired where
  set := by
    intro m h r value
    refine ⟨by rw [Registers.zero_set, h.zero], ?_⟩
    by_cases hr : r = 0
    · subst hr
      rw [Registers.get_set_self, if_pos ⟨rfl, h.zero⟩, h.get]
    · rw [Registers.get_set_of_ne _ (Ne.symm hr), h.get]
  setWordAt := by
    intro m h offset w
    exact ⟨h.zero, h.get⟩
  reset := by
    intro m h
    exact ⟨h.zero, Registers.get_init _ 0⟩
  clear := by
    intro m h
    exact ⟨h.zero, h.get⟩

/-- Equal contents. The policies on register 0 may differ. -/
structure SameContents (m m' : Machine) : Prop where
  get : ∀ r, m.registers.get r = m'.registers.get r
  memory : m.memory = m'.memory

end Machine

namespace Work

open Machine (SameContents)

theorem register_sameContents (index : Word) : (register index).Respects SameContents := by
  intro m m' h
  refine ⟨?_, rfl, h⟩
  simp only [register, Registers.read, funext h.get]

theorem word_sameContents (address : Word) : (word address).Respects SameContents := by
  intro m m' h
  exact ⟨by simp only [word, h.memory], rfl, h⟩

theorem setWord_sameContents (address value : Word) :
    (setWord address value).Respects SameContents := by
  intro m m' h
  simp only [setWord, h.memory]
  exact ⟨rfl, rfl, h.get, rfl⟩

/-- The policy is only asked about register 0. -/
theorem setRegister_sameContents {index : Word} (value : Word) (hne : index ≠ 0) :
    (setRegister index value).Respects SameContents := by
  intro m m' h
  simp only [setRegister, Registers.write]
  cases hr : Register.ofIndex index with
  | error e => exact ⟨rfl, rfl, h⟩
  | ok r =>
    have hzero : r ≠ 0 := by
      rintro rfl
      exact hne (BitVec.eq_of_toNat_eq (Register.ofIndex_eq_ok_iff.mp hr))
    have hkept : ∀ rs : Registers, rs.discards r = false := by
      intro rs
      simp [Registers.discards, hzero]
    refine ⟨rfl, ?_, fun s => ?_, h.memory⟩
    · simp only [Registers.setEvents, hkept]
    · simp only [Registers.get_set, hkept, h.get s]

end Work

theorem Action.head?_of_target? {a : Action} {operands : List Word} {target : Word}
    (h : target ∈ a.target? operands) : operands.head? = some target := by
  cases a with
  | store => cases h
  | branch => cases h
  | binary f => exact h
  | unary f => exact h
  | immediate f => exact h
  | constant f => exact h
  | load f => exact h

/-- No statement has a result for register 0. Stores and branches have no result. -/
def Program.SparesZero (p : Program) : Prop :=
  ∀ s ∈ p, s.operands.head? = some 0 →
    s.instruction.operation = .st ∨ s.instruction.operation = .beq

theorem Program.SparesZero.target_ne_zero {p : Program} (h : p.SparesZero) {s : Statement}
    (hs : s ∈ p) {target : Word}
    (ht : target ∈ s.instruction.operation.action.target? s.operands) : target ≠ 0 := by
  rintro rfl
  rcases h s hs (Action.head?_of_target? ht) with ho | ho
  · rw [ho] at ht
    cases ht
  · rw [ho] at ht
    cases ht

namespace Machine

theorem SameContents.execute {m m' : Machine} (h : m.SameContents m') {s : Statement}
    (hne : ∀ target ∈ s.instruction.operation.action.target? s.operands, target ≠ 0) :
    Outcome.Agree SameContents (s.execute m) (s.execute m') := by
  apply Instruction.execute_agree _ h
  apply Action.perform_respects Work.register_sameContents Work.word_sameContents
    Work.setWord_sameContents
  intro target ht value
  exact Work.setRegister_sameContents value (hne target ht)

/-- The policy on register 0 is about writes to it and nothing else: hardwired, the register reads
as 0 after any session, and machines of equal contents stay so, with the same answers and reports,
in a program that puts nothing into it, whichever policies they have. -/
theorem zeroPolicy_concerns_writes_only :
    (∀ (c : Config) (calls : List Call), c.zero = .hardwired →
      ((ofConfig c).after calls).registers.read 0 = .ok 0) ∧
    ∀ (p : Program) (m m' : Machine), p.SparesZero → m.SameContents m' → ∀ maxSteps,
      Outcome.Agree SameContents (p.run m maxSteps) (p.run m' maxSteps) := by
  constructor
  · intro c calls hc
    have hstart : (ofConfig c).ZeroHardwired := ⟨hc, Registers.get_init _ 0⟩
    exact congrArg Except.ok (invariant_zeroHardwired.after hstart calls).get
  · intro p m m' hp h maxSteps
    refine Program.run_agree ?_ h maxSteps
    intro s hs m m' h
    exact h.execute fun _ => hp.target_ne_zero hs

/-- A write to the hardwired register is lost, and a store of register 0 does not count as one. -/
theorem zeroPolicy_concerns_writes_only_store :
    ((ofConfig {}).after [.setRegister 0 9]).registers.read 0 = .ok 0 ∧
      ∃ (p : Program) (m m' : Machine), m.registers.zero = .hardwired ∧
        m'.registers.zero = .writable ∧ p.SparesZero ∧ m.SameContents m' ∧
          (p.run m 5).result = .ok 2 ∧ (p.run m' 5).result = .ok 2 := by
  let p : Program := #[⟨.st, [0, 0, 0]⟩, ⟨.grub, [1, 7]⟩]
  let m : Machine := ofConfig { base := 0, size := 4 }
  let m' : Machine := ofConfig { base := 0, size := 4, zero := .writable }
  have hspares : p.SparesZero := by
    intro s hs hhead
    rcases List.mem_cons.mp (Array.mem_def.mp hs) with rfl | hs
    · exact .inl rfl
    · cases List.mem_singleton.mp hs
      cases hhead
  have hsame : m.SameContents m' :=
    ⟨fun r => (Registers.get_init _ r).trans (Registers.get_init _ r).symm, rfl⟩
  have hrun : (p.run m 5).result = .ok 2 := by
    unfold p m
    rfl
  obtain ⟨hsession, hpolicies⟩ := zeroPolicy_concerns_writes_only
  refine ⟨hsession {} _ rfl, p, m, m', rfl, rfl, hspares, hsame, hrun, ?_⟩
  rw [← (hpolicies p m m' hspares hsame 5).result, hrun]

end Machine

end WordMachine
