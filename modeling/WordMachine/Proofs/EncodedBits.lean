import Mathlib.Algebra.Group.Nat.Defs
import WordMachine.Proofs.Partition

namespace WordMachine

theorem Field.toNat_and_mask (f : Field) (operand : Word) :
    (operand &&& f.mask).toNat = operand.toNat % 2 ^ f.width := by
  apply Nat.eq_of_testBit_eq
  intro bit
  rw [Nat.testBit_mod_two_pow, BitVec.testBit_toNat, BitVec.testBit_toNat, BitVec.getLsbD_and,
    getLsbD_mask]
  by_cases hb : bit < 32
  · simp [hb, Bool.and_comm]
  · simp [BitVec.getLsbD_of_ge operand bit (Nat.le_of_not_lt hb)]

namespace Template

theorem getLsbD_foldl_pack (pairs : List (Option Field × Word)) (start : Word) (bit : Nat) :
    (pairs.foldl (fun word (field, operand) => word ||| (field.map (·.pack operand)).getD 0)
        start).getLsbD bit = true ↔
      start.getLsbD bit = true ∨
        ∃ f operand, (some f, operand) ∈ pairs ∧ (f.pack operand).getLsbD bit = true := by
  induction pairs generalizing start with
  | nil => simp
  | cons pair pairs ih =>
    obtain ⟨field, operand⟩ := pair
    rw [List.foldl_cons, ih]
    cases field with
    | none => simp
    | some f =>
      simp only [Option.map_some, Option.getD_some, BitVec.getLsbD_or, Bool.or_eq_true,
        List.mem_cons, Prod.mk.injEq, Option.some.injEq]
      grind

theorem mem_zip_fields {t : Template} {operands : List Word} {f : Field} {operand : Word} :
    (some f, operand) ∈ t.fields.toList.zip operands ↔
      ∃ k, t.field? k = some f ∧ operands[k]? = some operand := by
  simp only [List.mem_iff_getElem?, List.getElem?_zip_eq_some, field?, Option.join_eq_some_iff,
    Vector.getElem?_toList]

theorem getLsbD_encode_iff (t : Template) (operands : List Word) (bit : Nat) :
    (t.encode operands).getLsbD bit = true ↔
      t.value.getLsbD bit = true ∨
        ∃ k f operand, t.field? k = some f ∧ operands[k]? = some operand ∧
          (f.pack operand).getLsbD bit = true := by
  rw [encode, getLsbD_foldl_pack]
  simp only [mem_zip_fields]
  grind

theorem Partition.getLsbD_encode_fixed {t : Template} (ht : t.Partition) (operands : List Word)
    {bit : Nat} (hm : t.mask.getLsbD bit = true) :
    (t.encode operands).getLsbD bit = t.value.getLsbD bit := by
  rw [Bool.eq_iff_iff, getLsbD_encode_iff]
  constructor
  · rintro (hv | ⟨k, f, operand, hf, -, hp⟩)
    · exact hv
    · rw [Field.getLsbD_pack] at hp
      have hc : f.covers bit = true := by simp_all
      rw [ht.free hf hc] at hm
      cases hm
  · exact Or.inl

theorem Partition.getLsbD_encode_covered {t : Template} (ht : t.Partition) {operands : List Word}
    {k : Nat} {f : Field} {operand : Word} (hf : t.field? k = some f)
    (ho : operands[k]? = some operand) {bit : Nat} (hc : f.covers bit = true) :
    (t.encode operands).getLsbD bit = operand.getLsbD (bit - f.lo) := by
  have hw : bit < 32 := by
    have hb := (ht.bounds hf).2
    simp only [Field.covers, Bool.and_eq_true, decide_eq_true_eq] at hc
    omega
  rw [Bool.eq_iff_iff, getLsbD_encode_iff]
  constructor
  · rintro (hv | ⟨j, g, other, hg, hj, hp⟩)
    · have hm := ht.value_fixed hv
      rw [ht.free hf hc] at hm
      cases hm
    · rw [Field.getLsbD_pack] at hp
      simp only [Bool.and_eq_true] at hp
      obtain rfl := ht.apart hg hf hp.1.2 hc
      obtain rfl := Option.some.inj (hg.symm.trans hf)
      obtain rfl := Option.some.inj (hj.symm.trans ho)
      exact hp.2
  · intro hb
    refine .inr ⟨k, f, operand, hf, ho, ?_⟩
    rw [Field.getLsbD_pack]
    simp [hw, hc, hb]

theorem Partition.accepts_encode {t : Template} (ht : t.Partition) (operands : List Word) :
    t.accepts (t.encode operands) = true := by
  rw [accepts, beq_iff_eq]
  apply BitVec.eq_of_getLsbD_eq
  intro bit _
  rw [BitVec.getLsbD_and]
  cases hm : t.mask.getLsbD bit with
  | false =>
    cases hv : t.value.getLsbD bit with
    | false => rw [Bool.and_false]
    | true =>
      rw [ht.value_fixed hv] at hm
      cases hm
  | true => rw [ht.getLsbD_encode_fixed operands hm, Bool.and_true]

/-- The operand comes back as far as its field reaches. -/
theorem Partition.extract_encode {t : Template} (ht : t.Partition) {operands : List Word}
    {k : Nat} {f : Field} {operand : Word} (hf : t.field? k = some f)
    (ho : operands[k]? = some operand) :
    f.extract (t.encode operands) = operand &&& f.mask := by
  apply BitVec.eq_of_getLsbD_eq
  intro bit hb
  rw [Field.getLsbD_extract, BitVec.getLsbD_and, Field.getLsbD_mask]
  by_cases hw : bit < f.width
  · have hc : f.covers (f.lo + bit) = true := by
      simp only [Field.covers, Bool.and_eq_true, decide_eq_true_eq]
      omega
    rw [ht.getLsbD_encode_covered hf ho hc, Nat.add_sub_cancel_left]
    simp [hb, hw]
  · simp [hw]

end Template

namespace Instruction

theorem arity_le_three (i : Instruction) : i.arity ≤ 3 := by
  unfold arity Operation.arity
  cases i.operation.action <;> simp [Action.arity]

@[simp] theorem length_decode (i : Instruction) (word : Word) :
    (i.decode word).length = i.arity := by
  simp [decode, i.arity_le_three]

theorem getElem?_decode {i : Instruction} {k : Nat} {f : Field} (hk : k < i.arity)
    (hf : i.template.field? k = some f) (word : Word) :
    (i.decode word)[k]? = some (f.extract word) := by
  have hf' : i.template.fields[k]? = some (some f) := Option.join_eq_some_iff.mp hf
  simp [decode, hk, hf']

end Instruction

end WordMachine
