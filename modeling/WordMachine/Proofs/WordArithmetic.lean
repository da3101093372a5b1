import Mathlib.Data.Nat.Init
import WordMachine.Word

namespace WordMachine.Word

theorem add_eq_ofInt (a b : Word) : a + b = .ofInt 32 (a.toInt + b.toInt) := by
  rw [BitVec.ofInt_add, BitVec.ofInt_toInt, BitVec.ofInt_toInt]

theorem sub_eq_ofInt (a b : Word) : a - b = .ofInt 32 (a.toInt - b.toInt) := by
  apply BitVec.eq_of_toInt_eq
  rw [BitVec.toInt_sub, BitVec.toInt_ofInt]

theorem mul_three_eq_ofInt (a : Word) : a * 3 = .ofInt 32 (3 * a.toInt) := by
  rw [BitVec.ofInt_mul, BitVec.ofInt_toInt, BitVec.mul_comm]
  rfl

theorem toInt_signExtendLow (w : Word) : w.signExtendLow.toInt = w.toInt.bmod 0x10000 := by
  rw [signExtendLow, BitVec.toInt_signExtend_of_le (by decide), BitVec.toInt_setWidth,
    BitVec.toInt_eq_toNat_bmod]
  exact (Int.bmod_bmod_of_dvd (by decide)).symm

theorem add_signExtendLow_eq_ofInt (a n : Word) :
    a + n.signExtendLow = .ofInt 32 (a.toInt + n.toInt.bmod 0x10000) := by
  rw [add_eq_ofInt, toInt_signExtendLow]

theorem and_byte_eq_ofInt (n : Word) : n &&& 0xff = .ofInt 32 (n.toInt % 0x100) := by
  apply BitVec.eq_of_toNat_eq
  have hm : (n &&& 0xff).toNat = n.toNat % 0x100 := by
    rw [BitVec.toNat_and]
    exact Nat.and_two_pow_sub_one_eq_mod n.toNat 8
  rw [hm, BitVec.toNat_ofInt, BitVec.toInt_eq_toNat_cond]
  have := n.isLt
  split <;> omega

variable {a b v : Word}

theorem eq_and_iff : v = a &&& b ↔ ∀ k < 32, v.getLsbD k = (a.getLsbD k && b.getLsbD k) := by
  simp only [BitVec.eq_of_getLsbD_eq_iff, BitVec.getLsbD_and]

theorem eq_or_iff : v = a ||| b ↔ ∀ k < 32, v.getLsbD k = (a.getLsbD k || b.getLsbD k) := by
  simp only [BitVec.eq_of_getLsbD_eq_iff, BitVec.getLsbD_or]

theorem eq_xor_iff : v = a ^^^ b ↔ ∀ k < 32, v.getLsbD k = (a.getLsbD k ^^ b.getLsbD k) := by
  simp only [BitVec.eq_of_getLsbD_eq_iff, BitVec.getLsbD_xor]

theorem eq_reverse_iff : v = a.reverse ↔ ∀ k < 32, v.getLsbD k = a.getLsbD (31 - k) := by
  have key : ∀ k < 32, a.reverse.getLsbD k = a.getLsbD (31 - k) := by
    intro k hk
    rw [BitVec.getLsbD_reverse, BitVec.getMsbD]
    simp [hk]
  rw [BitVec.eq_of_getLsbD_eq_iff]
  exact forall₂_congr fun k hk => by rw [key k hk]

theorem eq_or_signBit_iff :
    v = a ||| 0x80000000 ↔ ∀ k < 32, v.getLsbD k = (k == 31 || a.getLsbD k) := by
  have key : ∀ k < 32, (0x80000000 : Word).getLsbD k = (k == 31) := by decide
  rw [eq_or_iff]
  exact forall₂_congr fun k hk => by rw [key k hk, Bool.or_comm]

end WordMachine.Word
