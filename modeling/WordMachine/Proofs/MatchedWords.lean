import Mathlib.Algebra.Group.Int.Defs
import WordMachine.Proofs.OperandFields
import WordMachine.Proofs.Redecoding

namespace WordMachine

theorem Word.toInt_emod {n : Nat} (w : Word) (hn : n ≤ 32) :
    w.toInt % 2 ^ n = (w.toNat % 2 ^ n : Nat) := by
  have hpow : (2 : Int) ^ n = (2 ^ n : Nat) := (Int.natCast_pow 2 n).symm
  have hdvd : ((2 ^ n : Nat) : Int) ∣ (2 ^ 32 : Nat) :=
    Int.natCast_dvd_natCast.mpr (Nat.pow_dvd_pow 2 hn)
  rw [hpow, BitVec.toInt_eq_toNat_bmod, ← Int.emod_emod_of_dvd _ hdvd, Int.bmod_emod,
    Int.emod_emod_of_dvd _ hdvd, Int.natCast_emod]

namespace Field

theorem toNat_and_mask_eq_emod {f : Field} (hw : f.width ≤ 32) (operand : Word) :
    ((operand &&& f.mask).toNat : Int) = operand.toInt % 2 ^ f.width := by
  rw [toNat_and_mask, operand.toInt_emod hw]

theorem and_mask_eq_iff {f : Field} (hw : f.width ≤ 32) {x y : Word} :
    x &&& f.mask = y &&& f.mask ↔ x.toInt % 2 ^ f.width = y.toInt % 2 ^ f.width := by
  rw [← toNat_and_mask_eq_emod hw, ← toNat_and_mask_eq_emod hw, Int.natCast_inj,
    BitVec.toNat_inj]

theorem extract_and_mask (f : Field) (word : Word) :
    f.extract word &&& f.mask = f.extract word := by
  rw [extract, BitVec.and_assoc, BitVec.and_self]

end Field

namespace Template

variable {t : Template}

/-- Words with the fixed bits of a template differ in one of its fields, as no bit is left over. -/
theorem Partition.word_ext (ht : t.Partition) {v w : Word} (hv : t.accepts v = true)
    (hw : t.accepts w = true) (h : ∀ k f, t.field? k = some f → f.extract v = f.extract w) :
    v = w := by
  apply BitVec.eq_of_getLsbD_eq
  intro bit hb
  rcases ht.total hb with hm | ⟨k, f, hf, hc⟩
  · rw [getLsbD_of_accepts hv hm, getLsbD_of_accepts hw hm]
  · have hsame := congrArg (BitVec.getLsbD · (bit - f.lo)) (h k f hf)
    simp only [Field.covers, Bool.and_eq_true, decide_eq_true_eq] at hc
    have hlt : bit - f.lo < f.width := by omega
    simpa only [Field.getLsbD_extract, hlt, decide_true, Bool.true_and,
      Nat.add_sub_cancel' hc.1] using hsame

theorem Partition.encode_extract (ht : t.Partition) {word : Word} (hword : t.accepts word = true)
    {operands : List Word}
    (ho : ∀ k f, t.field? k = some f → operands[k]? = some (f.extract word)) :
    t.encode operands = word := by
  refine ht.word_ext (ht.accepts_encode operands) hword fun k f hf => ?_
  rw [ht.extract_encode hf (ho k f hf), f.extract_and_mask]

theorem Partition.encode_eq_iff (ht : t.Partition) {xs ys : List Word}
    (hx : ∀ k f, t.field? k = some f → k < xs.length)
    (hy : ∀ k f, t.field? k = some f → k < ys.length) :
    t.encode xs = t.encode ys ↔ ∀ k f x y, t.field? k = some f → xs[k]? = some x →
      ys[k]? = some y → x &&& f.mask = y &&& f.mask := by
  constructor
  · intro h k f x y hf hxk hyk
    rw [← ht.extract_encode hf hxk, ← ht.extract_encode hf hyk, h]
  · intro h
    refine ht.word_ext (ht.accepts_encode xs) (ht.accepts_encode ys) fun k f hf => ?_
    have hxk := List.getElem?_eq_getElem (hx k f hf)
    have hyk := List.getElem?_eq_getElem (hy k f hf)
    rw [ht.extract_encode hf hxk, ht.extract_encode hf hyk]
    exact h k f _ _ hf hxk hyk

end Template

theorem Catalog.standard_fieldPerOperand {i : Instruction} (hi : i ∈ standard.instructions) :
    i.FieldPerOperand := by
  obtain ⟨d, hd⟩ := Reachable.standard.separated.compiled i hi
  have hbound := Template.field_bound_iff (Definition.template_of_compile hd).2.1
  rw [Instruction.fieldPerOperand_iff_bound hd, hbound]
  intro k hk
  have hpos : 0 < i.fieldWidth k := by
    have hw := standard_fieldWidth i hi k hk
    split_ifs at hw <;> omega
  obtain ⟨f, hf, -⟩ := Instruction.field_of_width hpos
  rw [hf]
  rfl

/-- Every standard instruction has a field for each operand and no other field. If a definition
compiles to such an instruction, operands encode to a word that it accepts, with each of them in its
field modulo the number of values of the field. Every word that it accepts is the encoding of what
its fields hold, and two operand lists have one word exactly if they agree modulo these numbers. -/
theorem encode_onto_accepted_words :
    (∀ i ∈ Catalog.standard.instructions, i.FieldPerOperand) ∧
    ∀ (d : Definition) (i : Instruction), d.compile = .ok i → i.FieldPerOperand →
      (∀ operands : List Word, operands.length = i.arity →
        ∃ word, i.encode operands = .ok word ∧ i.template.accepts word = true ∧
          ∀ (k : Nat) (operand : Word), operands[k]? = some operand →
            ∃ f, i.template.field? k = some f ∧
              ((f.extract word).toNat : Int) = operand.toInt % 2 ^ f.width) ∧
      (∀ word, i.template.accepts word = true →
        i.encode (i.decode word) = .ok word ∧
          ∀ k f, i.template.field? k = some f → (i.decode word)[k]? = some (f.extract word)) ∧
      ∀ xs ys : List Word, xs.length = i.arity → ys.length = i.arity →
        (i.encode xs = i.encode ys ↔ ∀ k f x y, i.template.field? k = some f →
          xs[k]? = some x → ys[k]? = some y → x.toInt % 2 ^ f.width = y.toInt % 2 ^ f.width) := by
  refine ⟨fun i hi => Catalog.standard_fieldPerOperand hi, fun d i hd hfields => ?_⟩
  have ht := d.partition_of_compile hd
  have hk {k : Nat} {f : Field} (hf : i.template.field? k = some f) : k < i.arity :=
    (hfields k).mp (by rw [hf]; rfl)
  have hwidth {k : Nat} {f : Field} (hf : i.template.field? k = some f) : f.width ≤ 32 :=
    Nat.le_trans (Nat.le_add_left _ _) (ht.bounds hf).2
  refine ⟨fun operands hl => ?_, fun word hword => ?_, fun xs ys hx hy => ?_⟩
  · refine ⟨i.template.encode operands, if_pos hl, ht.accepts_encode operands, ?_⟩
    intro k operand ho
    obtain ⟨f, hf⟩ := Option.isSome_iff_exists.mp
      ((hfields k).mpr (hl ▸ (List.getElem?_eq_some_iff.mp ho).1))
    refine ⟨f, hf, ?_⟩
    rw [ht.extract_encode hf ho, Field.toNat_and_mask_eq_emod (hwidth hf)]
  · have hdecode : ∀ k f, i.template.field? k = some f →
        (i.decode word)[k]? = some (f.extract word) :=
      fun k f hf => Instruction.getElem?_decode (hk hf) hf word
    refine ⟨?_, hdecode⟩
    rw [Instruction.encode, if_pos (i.length_decode word), ht.encode_extract hword hdecode]
  · rw [Instruction.encode, Instruction.encode, if_pos hx, if_pos hy, Except.ok.injEq,
      ht.encode_eq_iff (fun k f hf => hx ▸ hk hf) (fun k f hf => hy ▸ hk hf)]
    refine forall₄_congr fun k f x y => forall_congr' fun hf => ?_
    rw [Field.and_mask_eq_iff (hwidth hf)]

/-- Two fields, of one bit and of 31 bits, and no fixed bit. The field of one bit does not tell -1
from 3, and every word is accepted. -/
theorem encode_onto_accepted_words_all :
    ∃ i, (Definition.reversal "fsssssssssssssssssssssssssssssss").compile = .ok i ∧
      i.FieldPerOperand ∧ i.encode [-1, -2] = i.encode [3, -2] ∧
      ∀ word, i.encode (i.decode word) = .ok word := by
  have hd : (Definition.reversal "fsssssssssssssssssssssssssssssss").compile = .ok
      { Definition.reversal "fsssssssssssssssssssssssssssssss" with
        template := ⟨0, 0, #v[some ⟨31, 1⟩, some ⟨0, 31⟩, none]⟩ } := by cbv
  have hfields := (Instruction.fieldPerOperand_iff_letters hd).mpr (by
    intro slot hm
    cases slot with
    | first | second => decide
    | third => exact absurd hm (by decide +kernel))
  obtain ⟨-, hall⟩ := encode_onto_accepted_words
  obtain ⟨-, hsurjective, hinjective⟩ := hall _ _ hd hfields
  refine ⟨_, hd, hfields, (hinjective [-1, -2] [3, -2] rfl rfl).mpr ?_, fun word => ?_⟩
  · intro k f x y hf hx hy
    rcases k with _ | _ | k
    · cases hf
      cases hx
      cases hy
      decide
    · cases hx
      cases hy
      rfl
    · cases hx
  · exact (hsurjective word (by simp [Template.accepts])).1

end WordMachine
