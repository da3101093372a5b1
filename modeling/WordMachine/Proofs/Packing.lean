import WordMachine.Proofs.MatchedWords
import WordMachine.Proofs.Strict

namespace WordMachine

theorem Word.toInt_emod_eq_iff {n : Nat} (hn : n ≤ 32) {x y : Word} :
    x.toInt % 2 ^ n = y.toInt % 2 ^ n ↔ ∀ k < n, x.getLsbD k = y.getLsbD k := by
  rw [x.toInt_emod hn, y.toInt_emod hn, Int.natCast_inj]
  constructor
  · intro h k hk
    have hbit := congrArg (Nat.testBit · k) h
    simpa only [Nat.testBit_mod_two_pow, hk, decide_true, Bool.true_and, BitVec.testBit_toNat]
      using hbit
  · intro h
    apply Nat.eq_of_testBit_eq
    intro k
    rw [Nat.testBit_mod_two_pow, Nat.testBit_mod_two_pow, BitVec.testBit_toNat,
      BitVec.testBit_toNat]
    by_cases hk : k < n
    · rw [h k hk]
    · simp [hk]

theorem Word.toNat_one_shiftLeft {k : Nat} (hk : k < 32) : ((1 : Word) <<< k).toNat = 2 ^ k := by
  have hpow : 2 ^ k < 2 ^ 32 := Nat.pow_lt_pow_right (by decide) hk
  rw [BitVec.toNat_shiftLeft, Nat.shiftLeft_eq, show (1 : Word).toNat = 1 from rfl, Nat.one_mul,
    Nat.mod_eq_of_lt hpow]

theorem Word.and_eq_zero_iff {x y : Word} :
    x &&& y = 0 ↔ ∀ bit < 32, x.getLsbD bit = true → y.getLsbD bit = false := by
  rw [BitVec.eq_of_getLsbD_eq_iff]
  refine forall₂_congr fun bit hb => ?_
  rw [BitVec.getLsbD_and]
  cases x.getLsbD bit <;> simp

namespace Field

variable {f : Field}

/-- The mask by a shift and a difference. A shift by all places of a word would be too far. -/
def maskStrict (f : Field) : Strict Word :=
  if 32 ≤ f.width then .ok (BitVec.allOnes 32)
  else do Strict.sub (← Strict.shiftLeft 1 f.width) 1

def packStrict (f : Field) (operand : Word) : Strict Word := do
  Strict.shiftLeft (operand &&& (← f.maskStrict)) f.lo

theorem mask_of_wide (hw : 32 ≤ f.width) : f.mask = BitVec.allOnes 32 := by
  apply BitVec.eq_of_getLsbD_eq
  intro bit hb
  rw [getLsbD_mask, BitVec.getLsbD_allOnes]
  simp [hb, Nat.lt_of_lt_of_le hb hw]

theorem mask_of_narrow (hw : f.width < 32) : f.mask = (1 : Word) <<< f.width - 1 := by
  have hpow : 2 ^ f.width < 2 ^ 32 := Nat.pow_lt_pow_right (by decide) hw
  have hpos : 0 < 2 ^ f.width := Nat.two_pow_pos _
  have hone := Word.toNat_one_shiftLeft hw
  have hle : (1 : Word) ≤ (1 : Word) <<< f.width := BitVec.le_def.mpr (by rw [hone]; exact hpos)
  apply BitVec.eq_of_toNat_eq
  rw [mask, BitVec.toNat_setWidth, BitVec.toNat_allOnes, BitVec.toNat_sub_of_le hle, hone,
    Nat.mod_eq_of_lt (by omega)]
  rfl

theorem maskStrict_eq (f : Field) : f.maskStrict = .ok f.mask := by
  unfold maskStrict
  split
  · rename_i hw
    rw [mask_of_wide hw]
  · rename_i hw
    have hlt : f.width < 32 := Nat.lt_of_not_le hw
    rw [Strict.shiftLeft_ok hlt, mask_of_narrow hlt]
    refine Strict.sub_ok ?_
    rw [Word.toNat_one_shiftLeft hlt]
    exact Nat.two_pow_pos _

theorem packStrict_eq (f : Field) (operand : Word) :
    f.packStrict operand = if f.lo < 32 then .ok (f.pack operand) else .error .overflow := by
  rw [packStrict, maskStrict_eq]
  rfl

theorem pack_eq_iff {x y : Word} :
    f.pack x = f.pack y ↔ ∀ k < min f.width (32 - f.lo), x.getLsbD k = y.getLsbD k := by
  simp only [BitVec.eq_of_getLsbD_eq_iff, getLsbD_pack]
  constructor
  · intro h k hk
    have hb := h (f.lo + k) (by omega)
    have hc : f.covers (f.lo + k) = true := by
      simp only [covers, Bool.and_eq_true, decide_eq_true_eq]
      omega
    have hlt : f.lo + k < 32 := by omega
    simpa only [hc, hlt, decide_true, Bool.true_and, Nat.add_sub_cancel_left] using hb
  · intro h bit hb
    by_cases hc : f.covers bit = true
    · simp only [covers, Bool.and_eq_true, decide_eq_true_eq] at hc
      rw [h (bit - f.lo) (by omega)]
    · simp [hc]

theorem toNat_and_mask_min (f : Field) (operand : Word) :
    ((operand &&& f.mask).toNat : Int) = operand.toInt % 2 ^ min f.width 32 := by
  rw [operand.toInt_emod (Nat.min_le_right _ _), toNat_and_mask]
  rcases Nat.le_total f.width 32 with hw | hw
  · rw [Nat.min_eq_left hw]
  · have hlt : operand.toNat < 2 ^ f.width :=
      Nat.lt_of_lt_of_le operand.isLt (Nat.pow_le_pow_right (by decide) hw)
    rw [Nat.min_eq_right hw, Nat.mod_eq_of_lt hlt, Nat.mod_eq_of_lt operand.isLt]

theorem toNat_pack (f : Field) (operand : Word) :
    ((f.pack operand).toNat : Int) =
      operand.toInt % 2 ^ min f.width 32 * 2 ^ f.lo % 2 ^ 32 := by
  rw [pack, BitVec.toNat_shiftLeft, Nat.shiftLeft_eq, ← toNat_and_mask_min]
  rfl

theorem getLsbD_mask_shiftLeft (f : Field) {bit : Nat} (hb : bit < 32) :
    (f.mask <<< f.lo).getLsbD bit = f.covers bit := by
  rw [BitVec.getLsbD_shiftLeft, getLsbD_mask, covers, Bool.eq_iff_iff]
  simp only [Bool.and_eq_true, Bool.not_eq_true', decide_eq_true_eq, decide_eq_false_iff_not]
  omega

theorem pack_shiftRight (h : f.lo + f.width ≤ 32) (operand : Word) :
    f.pack operand >>> f.lo = operand &&& f.mask := by
  apply BitVec.eq_of_getLsbD_eq
  intro bit hb
  rw [BitVec.getLsbD_ushiftRight, getLsbD_pack, BitVec.getLsbD_and, getLsbD_mask,
    Nat.add_sub_cancel_left, Bool.eq_iff_iff]
  simp only [covers, Bool.and_eq_true, decide_eq_true_eq]
  constructor
  · rintro ⟨⟨hlt, hcov⟩, ho⟩
    exact ⟨ho, hb, by omega⟩
  · rintro ⟨ho, -, hw⟩
    exact ⟨⟨by omega, by omega, by omega⟩, ho⟩

/-- Whatever the place and the width of a field, each bit of a packed operand is the bit of the
operand that the field has there, and 0 beside the field: the operand modulo the number of values of
the field, moved up and cut to a word. The field tells two operands apart exactly if they differ in
bits that are both in the field and in the word. -/
theorem pack_exact (f : Field) (operand : Word) :
    (∀ bit < 32, (f.pack operand).getLsbD bit =
      if f.lo ≤ bit ∧ bit < f.lo + f.width then operand.getLsbD (bit - f.lo) else false) ∧
    ((f.pack operand).toNat : Int) =
      operand.toInt % 2 ^ min f.width 32 * 2 ^ f.lo % 2 ^ 32 ∧
    (∀ other, f.pack operand = f.pack other ↔
      operand.toInt % 2 ^ min f.width (32 - f.lo) = other.toInt % 2 ^ min f.width (32 - f.lo)) ∧
    f.packStrict operand = if f.lo < 32 then .ok (f.pack operand) else .error .overflow := by
  refine ⟨fun bit hb => ?_, f.toNat_pack operand, fun other => ?_, f.packStrict_eq operand⟩
  · rw [getLsbD_pack]
    simp [hb, covers]
  · rw [pack_eq_iff, Word.toInt_emod_eq_iff (by omega)]

/-- A field wider than a word, of which the word has four bits. They do not tell -1 from 15. -/
theorem pack_exact_beyond :
    (⟨28, 200⟩ : Field).pack (-1) = (⟨28, 200⟩ : Field).pack 15 ∧
      ((⟨28, 200⟩ : Field).pack (-1)).getLsbD 31 = true ∧
      (⟨28, 200⟩ : Field).packStrict (-1) = .ok 0xf0000000 := by
  obtain ⟨hbits, -, hsame, hstrict⟩ := pack_exact ⟨28, 200⟩ (-1)
  refine ⟨(hsame 15).mpr (by decide), ?_, ?_⟩
  · rw [hbits 31 (by decide)]
    decide
  · rw [hstrict]
    decide

end Field

end WordMachine
