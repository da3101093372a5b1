import WordMachine.Proofs.Contents
import WordMachine.Proofs.Primality
import WordMachine.Proofs.Settling
import WordMachine.Proofs.WordArithmetic

namespace WordMachine

/-- The address that lies as far from a base as the low half of the displacement says. It wraps
around at either end of the address space. -/
def Word.displaced (base displacement : Word) : Word :=
  .ofInt 32 (base.toInt + displacement.toInt.bmod 0x10000)

theorem Word.add_signExtendLow (base displacement : Word) :
    base + displacement.signExtendLow = base.displaced displacement :=
  add_signExtendLow_eq_ofInt base displacement

namespace Machine

/-- Afterwards only this register may differ. It has the value, unless it is hardwired. -/
structure SetsRegister (m : Machine) (r : Register) (value : Word) (m' : Machine) : Prop where
  written : m'.registers.get r =
    if r = 0 ∧ m.registers.zero = .hardwired then m.registers.get r else value
  others : ∀ s, s ≠ r → m'.registers.get s = m.registers.get s
  zero : m'.registers.zero = m.registers.zero
  memory : m'.memory = m.memory

/-- Afterwards only the word at this address may differ. It is in memory and has the value. -/
structure SetsWord (m : Machine) (address value : Word) (m' : Machine) : Prop where
  written : m'.memory.read address = .ok value
  others : ∀ offset, m.memory.base.toNat + offset < address.toNat ∨
    address.toNat + 4 ≤ m.memory.base.toNat + offset →
      m'.memory.byteAt offset = m.memory.byteAt offset
  base : m'.memory.base = m.memory.base
  size : m'.memory.size = m.memory.size
  order : m'.memory.order = m.memory.order
  registers : m'.registers = m.registers

end Machine

/-- What an operation with a destination register puts there. -/
inductive Operation.Yields (m : Machine) : Operation → List Word → Word → Prop
  | add {d s t a b v : Word} (hs : m.Holds s a) (ht : m.Holds t b)
      (sum : v = .ofInt 32 (a.toInt + b.toInt)) : Yields m .add [d, s, t] v
  | sub {d s t a b v : Word} (hs : m.Holds s a) (ht : m.Holds t b)
      (difference : v = .ofInt 32 (a.toInt - b.toInt)) : Yields m .sub [d, s, t] v
  | and {d s t a b v : Word} (hs : m.Holds s a) (ht : m.Holds t b)
      (bits : ∀ k < 32, v.getLsbD k = (a.getLsbD k && b.getLsbD k)) : Yields m .and [d, s, t] v
  | or {d s t a b v : Word} (hs : m.Holds s a) (ht : m.Holds t b)
      (bits : ∀ k < 32, v.getLsbD k = (a.getLsbD k || b.getLsbD k)) : Yields m .or [d, s, t] v
  | xor {d s t a b v : Word} (hs : m.Holds s a) (ht : m.Holds t b)
      (bits : ∀ k < 32, v.getLsbD k = (a.getLsbD k ^^ b.getLsbD k)) : Yields m .xor [d, s, t] v
  | addi {d s n a v : Word} (hs : m.Holds s a)
      (sum : v = .ofInt 32 (a.toInt + n.toInt.bmod 0x10000)) : Yields m .addi [d, s, n] v
  | grub {d n v : Word} (remainder : v = .ofInt 32 (n.toInt % 0x100)) : Yields m .grub [d, n] v
  | tripled {d s a v : Word} (hs : m.Holds s a) (product : v = .ofInt 32 (3 * a.toInt)) :
      Yields m .tripled [d, s] v
  | deep {d s a v : Word} (hs : m.Holds s a)
      (bits : ∀ k < 32, v.getLsbD k = a.getLsbD (31 - k)) : Yields m .deep [d, s] v
  | prime {d s a : Word} (hs : m.Holds s a) (prime : a.toInt.toNat.Prime) :
      Yields m .prim [d, s] 1
  | notPrime {d s a : Word} (hs : m.Holds s a) (notPrime : ¬ a.toInt.toNat.Prime) :
      Yields m .prim [d, s] 0
  | ld {d s n a v : Word} (hs : m.Holds s a) (word : m.memory.read (a.displaced n) = .ok v) :
      Yields m .ld [d, s, n] v
  | loaded {d s n a w v : Word} (hs : m.Holds s a)
      (word : m.memory.read (a.displaced n) = .ok w)
      (bits : ∀ k < 32, v.getLsbD k = (k == 31 || w.getLsbD k)) : Yields m .loaded [d, s, n] v

/-- A row of the table: the flow and the machine that an instruction ends with. -/
inductive Tabulated (m : Machine) : Operation → List Word → Flow → Machine → Prop
  | result {o : Operation} {d v : Word} {rest : List Word} {r : Register} {m' : Machine}
      (value : o.Yields m (d :: rest) v) (named : d.toNat = r.val)
      (set : m.SetsRegister r v m') : Tabulated m o (d :: rest) .next m'
  | store {t s n v a : Word} {m' : Machine} (ht : m.Holds t v) (hs : m.Holds s a)
      (set : m.SetsWord (a.displaced n) v m') : Tabulated m .st [t, s, n] .next m'
  | taken {s t target a : Word} (hs : m.Holds s a) (ht : m.Holds t a) :
      Tabulated m .beq [s, t, target] (.branch target) m
  | passed {s t target a b : Word} (hs : m.Holds s a) (ht : m.Holds t b) (hne : a ≠ b) :
      Tabulated m .beq [s, t, target] .next m

namespace Machine

variable {m m' : Machine}

theorem setsRegister_iff {r : Register} {v : Word} :
    m.SetsRegister r v m' ↔ (Effect.set r v).apply m = m' := by
  constructor
  · intro h
    have hr : m.registers.set r v = m'.registers := by
      refine Registers.ext_get (by rw [Registers.zero_set, h.zero]) fun s => ?_
      by_cases hs : s = r
      · subst hs
        rw [Registers.get_set_self, h.written]
      · rw [Registers.get_set_of_ne _ hs, h.others s hs]
    rw [Effect.apply, hr, ← h.memory]
  · rintro rfl
    exact {
      written := Registers.get_set_self _ _ _
      others := fun s hs => Registers.get_set_of_ne _ hs _
      zero := Registers.zero_set _ _ _
      memory := rfl }

theorem setsWord_iff {address v : Word} :
    m.SetsWord address v m' ↔
      ∃ offset, m.memory.locate address = .ok offset ∧ (Effect.store offset v).apply m = m' := by
  constructor
  · intro h
    obtain ⟨offset, hl', hw⟩ := Memory.read_eq_ok_iff.mp h.written
    have hl : m.memory.locate address = .ok offset := by
      rw [Memory.locate_congr h.base.symm h.size.symm, hl']
    obtain ⟨-, hbase, hfits⟩ := Memory.locate_eq_ok_iff.mp hl
    refine ⟨offset, hl, ?_⟩
    have hm : m.memory.setWordAt offset v = m'.memory := by
      apply Memory.ext_byteAt
      case base => rw [Memory.base_setWordAt, h.base]
      case order => rw [Memory.order_setWordAt, h.order]
      case size => rw [Memory.size_setWordAt, h.size]
      case byteAt =>
        intro k
        rw [Memory.byteAt_setWordAt _ _ _ _ hfits]
        split
        · rename_i hk
          obtain ⟨j, rfl⟩ := Nat.exists_eq_add_of_le hk.1
          rw [← hw, Nat.add_sub_cancel_left, ← h.order, Memory.byteOf_wordAt _ _ (by omega)]
        · exact (h.others k (by omega)).symm
    rw [Effect.apply, hm, ← h.registers]
  · rintro ⟨offset, hl, rfl⟩
    obtain ⟨-, hbase, hfits⟩ := Memory.locate_eq_ok_iff.mp hl
    constructor
    case written =>
      rw [Memory.read_eq_ok_iff, Effect.apply, Memory.locate_setWordAt]
      exact ⟨offset, hl, Memory.wordAt_setWordAt _ _ _ hfits⟩
    case others =>
      intro k hk
      rw [Effect.apply, Memory.byteAt_setWordAt _ _ _ _ hfits, if_neg (by omega)]
    case base => rw [Effect.apply, Memory.base_setWordAt]
    case size => rw [Effect.apply, Memory.size_setWordAt]
    case order => rw [Effect.apply, Memory.order_setWordAt]
    case registers => rw [Effect.apply]

end Machine

namespace Operation

variable {m : Machine} {operands : List Word} {r : Register} {v : Word} {e : Effect}

theorem action_eq_store_iff {o : Operation} : o.action = .store ↔ o = .st := by
  cases o <;> simp [action]

theorem action_eq_branch_iff {o : Operation} : o.action = .branch ↔ o = .beq := by
  cases o <;> simp [action]

theorem yields_of_settles {o : Operation} (h : o.action.Settles m operands (.set r v)) :
    ∃ d rest, operands = d :: rest ∧ o.Yields m operands v ∧ d.toNat = r.val := by
  cases o with
  | add =>
    cases h with
    | binary hs ht named => exact ⟨_, _, rfl, .add hs ht (Word.add_eq_ofInt _ _), named⟩
  | sub =>
    cases h with
    | binary hs ht named => exact ⟨_, _, rfl, .sub hs ht (Word.sub_eq_ofInt _ _), named⟩
  | and =>
    cases h with
    | binary hs ht named => exact ⟨_, _, rfl, .and hs ht (Word.eq_and_iff.mp rfl), named⟩
  | or =>
    cases h with
    | binary hs ht named => exact ⟨_, _, rfl, .or hs ht (Word.eq_or_iff.mp rfl), named⟩
  | xor =>
    cases h with
    | binary hs ht named => exact ⟨_, _, rfl, .xor hs ht (Word.eq_xor_iff.mp rfl), named⟩
  | addi =>
    cases h with
    | immediate hs named =>
      exact ⟨_, _, rfl, .addi hs (Word.add_signExtendLow_eq_ofInt _ _), named⟩
  | ld =>
    cases h with
    | load hs located named =>
      rw [Word.add_signExtendLow] at located
      exact ⟨_, _, rfl, .ld hs (Memory.read_ok located), named⟩
  | st => cases h
  | beq => cases h
  | grub =>
    cases h with
    | constant named => exact ⟨_, _, rfl, .grub (Word.and_byte_eq_ofInt _), named⟩
  | tripled =>
    cases h with
    | unary hs named => exact ⟨_, _, rfl, .tripled hs (Word.mul_three_eq_ofInt _), named⟩
  | deep =>
    cases h with
    | unary hs named => exact ⟨_, _, rfl, .deep hs (Word.eq_reverse_iff.mp rfl), named⟩
  | prim =>
    cases h with
    | unary hs named =>
      refine ⟨_, _, rfl, ?_, named⟩
      dsimp only
      split
      · rename_i hp
        exact .prime hs ((Word.isPrime_iff _).mp hp)
      · rename_i hp
        exact .notPrime hs (fun h => hp ((Word.isPrime_iff _).mpr h))
  | loaded =>
    cases h with
    | load hs located named =>
      rw [Word.add_signExtendLow] at located
      exact ⟨_, _, rfl, .loaded hs (Memory.read_ok located) (Word.eq_or_signBit_iff.mp rfl), named⟩

theorem Yields.settles {o : Operation} {d : Word} {rest : List Word}
    (h : o.Yields m (d :: rest) v) (named : d.toNat = r.val) :
    o.action.Settles m (d :: rest) (.set r v) := by
  cases h with
  | add hs ht sum =>
    rw [sum, ← Word.add_eq_ofInt]
    exact .binary hs ht named
  | sub hs ht difference =>
    rw [difference, ← Word.sub_eq_ofInt]
    exact .binary hs ht named
  | and hs ht bits =>
    rw [Word.eq_and_iff.mpr bits]
    exact .binary hs ht named
  | or hs ht bits =>
    rw [Word.eq_or_iff.mpr bits]
    exact .binary hs ht named
  | xor hs ht bits =>
    rw [Word.eq_xor_iff.mpr bits]
    exact .binary hs ht named
  | addi hs sum =>
    rw [sum, ← Word.add_signExtendLow_eq_ofInt]
    exact .immediate hs named
  | grub remainder =>
    rw [remainder, ← Word.and_byte_eq_ofInt]
    exact .constant named
  | tripled hs product =>
    rw [product, ← Word.mul_three_eq_ofInt]
    exact .unary hs named
  | deep hs bits =>
    rw [Word.eq_reverse_iff.mpr bits]
    exact .unary hs named
  | @prime _ _ a hs prime =>
    have hv : (if a.isPrime then 1 else 0 : Word) = 1 := if_pos ((Word.isPrime_iff a).mpr prime)
    rw [← hv]
    exact .unary hs named
  | @notPrime _ _ a hs notPrime =>
    have hv : (if a.isPrime then 1 else 0 : Word) = 0 :=
      if_neg (fun hp => notPrime ((Word.isPrime_iff a).mp hp))
    rw [← hv]
    exact .unary hs named
  | ld hs word =>
    obtain ⟨offset, located, rfl⟩ := Memory.read_eq_ok_iff.mp word
    rw [← Word.add_signExtendLow] at located
    exact .load hs located named
  | loaded hs word bits =>
    obtain ⟨offset, located, rfl⟩ := Memory.read_eq_ok_iff.mp word
    rw [← Word.add_signExtendLow] at located
    rw [Word.eq_or_signBit_iff.mpr bits]
    exact .load hs located named

end Operation

/-- An execution of any instruction on any operands and any machine succeeds with a flow and a
machine exactly as a row of the table says. Rows read the machine as it was before, so it makes no
difference when a destination is also a source. -/
theorem Instruction.execute_iff_tabulated (i : Instruction) (operands : List Word)
    (m m' : Machine) (flow : Flow) :
    (i.execute operands m).result = .ok flow ∧ (i.execute operands m).state = m' ↔
      Tabulated m i.operation operands flow m' := by
  rw [execute_eq_ok_iff]
  generalize i.operation = o
  constructor
  · rintro ⟨e, he, rfl, rfl⟩
    cases e with
    | set r v =>
      obtain ⟨d, rest, rfl, hv, named⟩ := Operation.yields_of_settles he
      exact .result hv named (Machine.setsRegister_iff.mpr rfl)
    | store offset v =>
      generalize ha : o.action = action at he
      cases he with
      | store ht hs located =>
        obtain rfl := Operation.action_eq_store_iff.mp ha
        rw [Word.add_signExtendLow] at located
        exact .store ht hs (Machine.setsWord_iff.mpr ⟨_, located, rfl⟩)
    | branch target =>
      generalize ha : o.action = action at he
      cases he with
      | taken hs ht =>
        obtain rfl := Operation.action_eq_branch_iff.mp ha
        exact .taken hs ht
    | pass =>
      generalize ha : o.action = action at he
      cases he with
      | passed hs ht hne =>
        obtain rfl := Operation.action_eq_branch_iff.mp ha
        exact .passed hs ht hne
  · intro h
    cases h with
    | @result _ _ v _ r _ value named set =>
      exact ⟨.set r v, value.settles named, rfl, Machine.setsRegister_iff.mp set⟩
    | store ht hs set =>
      obtain ⟨offset, located, rfl⟩ := Machine.setsWord_iff.mp set
      rw [← Word.add_signExtendLow] at located
      exact ⟨_, .store ht hs located, rfl, rfl⟩
    | @taken _ _ target _ hs ht => exact ⟨.branch target, .taken hs ht, rfl, rfl⟩
    | passed hs ht hne => exact ⟨.pass, .passed hs ht hne, rfl, rfl⟩

end WordMachine
