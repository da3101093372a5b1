import Mathlib.Data.List.Basic
import WordMachine.Proofs.EncodedBits

namespace WordMachine

namespace Template

theorem isSome_field?_iff {text : String} {t : Template} (h : read text = .ok t) (slot : Slot) :
    (t.field? slot.index).isSome = true ↔ slot.letter ∈ significant text := by
  obtain ⟨symbols, hr, hd⟩ := describes_of_read h
  rw [← map_toChar_of_readSymbols hr, ← Symbol.toChar_operand, mem_map_toChar_iff]
  rcases run_of_fieldOf (hd.field slot) with ⟨hn, hnot⟩ | ⟨left, width, lower, he, hw, -, -, hf⟩
  · simp [hn, hnot]
  · obtain ⟨n, rfl⟩ := Nat.exists_eq_succ_of_ne_zero (Nat.ne_of_gt hw)
    simp [hf, he, List.replicate_succ]

theorem fieldCount_eq (t : Template) :
    t.fieldCount = [0, 1, 2].countP fun k => (t.field? k).isSome := by
  obtain ⟨mask, value, ⟨⟨fields⟩, hs⟩⟩ := t
  obtain ⟨a, b, c, rfl⟩ := List.length_eq_three.mp hs
  rfl

theorem lt_three_of_field? {t : Template} {k : Nat} (h : (t.field? k).isSome = true) : k < 3 := by
  obtain ⟨f, hf⟩ := Option.isSome_iff_exists.mp h
  obtain ⟨slot, rfl⟩ := slot_of_field? hf
  cases slot <;> decide

/-- With as many fields as operands, no field is left over exactly when no operand is. -/
theorem field_bound_iff {t : Template} {n : Nat} (hn : t.fieldCount = n) :
    (∀ k, (t.field? k).isSome = true → k < n) ↔ ∀ k < n, (t.field? k).isSome = true := by
  simp only [fieldCount_eq, List.countP_cons, List.countP_nil] at hn
  constructor
  · intro h k hk
    have h0 := h 0
    have h1 := h 1
    have h2 := h 2
    have hle : k < 3 := by split_ifs at hn <;> omega
    grind
  · intro h k hs
    have h0 := h 0
    have h1 := h 1
    have h2 := h 2
    have hle := lt_three_of_field? hs
    grind

theorem encode_congr {t : Template} {xs ys : List Word}
    (h : ∀ k, (t.field? k).isSome = true → xs[k]? = ys[k]?) : t.encode xs = t.encode ys := by
  have key : ∀ {k f}, t.field? k = some f → xs[k]? = ys[k]? := fun hf => h _ (by simp [hf])
  apply BitVec.eq_of_getLsbD_eq
  intro bit _
  rw [Bool.eq_iff_iff, getLsbD_encode_iff, getLsbD_encode_iff]
  grind

end Template

/-- Only letters of operands that the operation takes stand in the encoding. -/
def Definition.KeepsToLetters (d : Definition) : Prop :=
  ∀ slot : Slot, slot.letter ∈ Template.significant d.encoding → slot.index < d.operation.arity

namespace Instruction

/-- Each operand has a field, and no field is without an operand. -/
def FieldPerOperand (i : Instruction) : Prop :=
  ∀ k, (i.template.field? k).isSome = true ↔ k < i.arity

/-- Operand lists get different words as soon as one operand differs in its lowest bit. -/
def TellsLowBits (i : Instruction) : Prop :=
  ∀ xs ys : List Word, xs.length = i.arity → ys.length = i.arity →
    (∃ (k : Nat) (x y : Word), xs[k]? = some x ∧ ys[k]? = some y ∧ x.getLsbD 0 ≠ y.getLsbD 0) →
      ∃ v w, i.encode xs = .ok v ∧ i.encode ys = .ok w ∧ v ≠ w

variable {d : Definition} {i : Instruction}

theorem isSome_field?_iff_letter (h : d.compile = .ok i) (slot : Slot) :
    (i.template.field? slot.index).isSome = true ↔
      slot.letter ∈ Template.significant d.encoding :=
  Template.isSome_field?_iff (Definition.template_of_compile h).1 slot

theorem arity_of_compile (h : d.compile = .ok i) : i.arity = d.operation.arity := by
  rw [← (Definition.template_of_compile h).2.2]
  rfl

theorem fieldPerOperand_iff_bound (h : d.compile = .ok i) :
    i.FieldPerOperand ↔ ∀ k, (i.template.field? k).isSome = true → k < i.arity := by
  have hb := Template.field_bound_iff (Definition.template_of_compile h).2.1
  exact ⟨fun hf k => (hf k).mp, fun hk k => ⟨hk k, hb.mp hk k⟩⟩

theorem fieldPerOperand_iff_letters (h : d.compile = .ok i) :
    i.FieldPerOperand ↔ d.KeepsToLetters := by
  rw [fieldPerOperand_iff_bound h, arity_of_compile h]
  constructor
  · intro hk slot hm
    exact hk slot.index ((isSome_field?_iff_letter h slot).mpr hm)
  · intro hk k hs
    obtain ⟨f, hf⟩ := Option.isSome_iff_exists.mp hs
    obtain ⟨slot, rfl⟩ := Template.slot_of_field? hf
    exact hk slot ((isSome_field?_iff_letter h slot).mp hs)

theorem FieldPerOperand.tellsLowBits (hf : i.FieldPerOperand) (hi : i.template.Partition) :
    i.TellsLowBits := by
  intro xs ys hxs hys
  rintro ⟨k, x, y, hx, hy, hne⟩
  refine ⟨i.template.encode xs, i.template.encode ys, if_pos hxs, if_pos hys, fun he => ?_⟩
  have hk : k < i.arity := hxs ▸ (List.getElem?_eq_some_iff.mp hx).1
  obtain ⟨f, hf⟩ := Option.isSome_iff_exists.mp ((hf k).mpr hk)
  have hc : f.covers f.lo = true := by
    have hb := (hi.bounds hf).1
    simp only [Field.covers, Bool.and_eq_true, decide_eq_true_eq]
    omega
  have hbx := hi.getLsbD_encode_covered hf hx hc
  have hby := hi.getLsbD_encode_covered hf hy hc
  rw [Nat.sub_self] at hbx hby
  rw [he, hby] at hbx
  exact hne hbx.symm

theorem TellsLowBits.isSome_field? (ht : i.TellsLowBits) {k : Nat} (hk : k < i.arity) :
    (i.template.field? k).isSome = true := by
  by_contra hn
  have hl : (List.replicate i.arity (0 : Word)).length = i.arity := List.length_replicate
  have hl' : ((List.replicate i.arity (0 : Word)).set k 1).length = i.arity := by
    rw [List.length_set, hl]
  have hw : i.template.encode (List.replicate i.arity 0) =
      i.template.encode ((List.replicate i.arity 0).set k 1) := by
    refine Template.encode_congr fun j hj => ?_
    have hne : k ≠ j := by
      rintro rfl
      exact hn hj
    rw [List.getElem?_set_ne hne]
  obtain ⟨v, w, hv, hw', hne⟩ := ht _ _ hl hl' ⟨k, 0, 1, by simp [hk], by simp [hk], by decide⟩
  rw [encode, if_pos hl] at hv
  rw [encode, if_pos hl', ← hw] at hw'
  exact hne (Except.ok.inj (hv.symm.trans hw'))

theorem tellsLowBits_iff (h : d.compile = .ok i) : i.TellsLowBits ↔ i.FieldPerOperand := by
  constructor
  · intro ht
    have hb := Template.field_bound_iff (Definition.template_of_compile h).2.1
    exact (fieldPerOperand_iff_bound h).mpr (hb.mpr fun k => ht.isSome_field?)
  · intro hf
    exact hf.tellsLowBits (d.partition_of_compile h)

end Instruction

/-- A definition compiles to an instruction with a field for each operand, and to one that tells
operands apart by their lowest bits, exactly when its encoding keeps to the letters of its
operands. Its encoding has as many letters as there are operands, but they may be other ones. -/
theorem Definition.compile_keeps_operands_iff {d : Definition} {i : Instruction}
    (h : d.compile = .ok i) :
    (i.FieldPerOperand ↔ d.KeepsToLetters) ∧ (i.TellsLowBits ↔ d.KeepsToLetters) := by
  have hf := Instruction.fieldPerOperand_iff_letters h
  exact ⟨hf, (Instruction.tellsLowBits_iff h).trans hf⟩

/-- Bit reversal, which takes two operands, with an encoding of the author's choice. -/
def Definition.reversal (encoding : String) : Definition :=
  { operation := .deep, mnemonic := "DEEP", usage := "DEEP $t0,$t1"
    description := "DEEP: bit-reverse rs into rd.", format := .r, encoding }

/-- An encoding with the letters of two operands. -/
theorem compile_keeps_operands_iff_reversal :
    ∃ i, (Definition.reversal "000000 sssss 00000 fffff 00000 100001").compile = .ok i ∧
      i.FieldPerOperand ∧ i.TellsLowBits := by
  have hc : (Definition.reversal "000000 sssss 00000 fffff 00000 100001").compile = .ok
      { Definition.reversal "000000 sssss 00000 fffff 00000 100001" with
        template := ⟨0xfc1f07ff, 0x21, #v[some ⟨11, 5⟩, some ⟨21, 5⟩, none]⟩ } := by cbv
  have hk : (Definition.reversal "000000 sssss 00000 fffff 00000 100001").KeepsToLetters := by
    intro slot hm
    cases slot with
    | first => decide
    | second => decide
    | third => exact absurd hm (by decide +kernel)
  obtain ⟨hf, ht⟩ := Definition.compile_keeps_operands_iff hc
  exact ⟨_, hc, hf.mpr hk, ht.mpr hk⟩

/-- An encoding with the letter of a third operand instead of the second compiles as well. The
second operand is lost. -/
theorem second_operand_lost :
    ∃ i, (Definition.reversal "000000 ttttt 00000 fffff 00000 100001").compile = .ok i ∧
      i.arity = 2 ∧ i.template.field? 1 = none ∧ i.template.field? 2 = some ⟨21, 5⟩ ∧
      i.encode [3, 4] = .ok 0x1821 ∧ i.encode [3, 5] = .ok 0x1821 ∧
      ¬ i.FieldPerOperand ∧ ¬ i.TellsLowBits := by
  refine ⟨{ Definition.reversal "000000 ttttt 00000 fffff 00000 100001" with
            template := ⟨0xfc1f07ff, 0x21, #v[some ⟨11, 5⟩, none, some ⟨21, 5⟩]⟩ },
    by cbv, rfl, rfl, rfl, by cbv, by cbv, ?_, ?_⟩
  · intro hf
    have h1 := (hf 1).mpr (by decide)
    cases h1
  · intro ht
    obtain ⟨v, w, hv, hw, hne⟩ := ht [3, 4] [3, 5] rfl rfl ⟨1, 4, 5, rfl, rfl, by decide⟩
    exact hne (Except.ok.inj (hv.symm.trans hw))

end WordMachine
