import Mathlib.Algebra.Group.Nat.Defs
import Mathlib.Data.List.Basic
import WordMachine.Proofs.Effects
import WordMachine.Proofs.ReachableCatalogs

namespace WordMachine

namespace Field

theorem and_mask_of_lt {f : Field} {operand : Word} {n : Nat} (ho : operand.toNat < 2 ^ n)
    (hw : n ≤ f.width) : operand &&& f.mask = operand := by
  have hlt : operand.toNat < 2 ^ f.width :=
    Nat.lt_of_lt_of_le ho (Nat.pow_le_pow_right (by omega) hw)
  apply BitVec.eq_of_toNat_eq
  rw [toNat_and_mask, Nat.mod_eq_of_lt hlt]

theorem setWidth_and_mask {f : Field} (operand : Word) (hw : 16 ≤ f.width) :
    (operand &&& f.mask).setWidth 16 = operand.setWidth 16 := by
  apply BitVec.eq_of_getLsbD_eq
  intro bit hb
  rw [BitVec.getLsbD_setWidth, BitVec.getLsbD_setWidth, BitVec.getLsbD_and, getLsbD_mask]
  have h1 : bit < 32 := by omega
  have h2 : bit < f.width := by omega
  simp [h1, h2]

theorem and_mask_of_five {f : Field} (operand : Word) (hw : f.width = 5) :
    operand &&& f.mask = operand % 32 := by
  apply BitVec.eq_of_toNat_eq
  rw [toNat_and_mask, hw, BitVec.toNat_umod]
  rfl

end Field

namespace Instruction

def registerCount (i : Instruction) : Nat := i.operation.action.registerCount

/-- An operand without a field has width 0. -/
def fieldWidth (i : Instruction) (k : Nat) : Nat := ((i.template.field? k).map Field.width).getD 0

theorem field_of_width {i : Instruction} {k : Nat} (h : 0 < i.fieldWidth k) :
    ∃ f, i.template.field? k = some f ∧ f.width = i.fieldWidth k := by
  unfold fieldWidth at h ⊢
  cases hf : i.template.field? k with
  | none => simp [hf] at h
  | some f => exact ⟨f, rfl, rfl⟩

theorem getElem?_decode_encode {i : Instruction} (ht : i.template.Partition)
    {operands : List Word} {k : Nat} {f : Field} {operand : Word} (hk : k < i.arity)
    (hf : i.template.field? k = some f) (ho : operands[k]? = some operand) :
    (i.decode (i.template.encode operands))[k]? = some (operand &&& f.mask) := by
  rw [getElem?_decode hk hf, ht.extract_encode hf ho]

end Instruction

namespace Word

theorem signExtendLow_congr {x y : Word} (h : x.setWidth 16 = y.setWidth 16) :
    x.signExtendLow = y.signExtendLow := by
  rw [signExtendLow, signExtendLow, h]

theorem and_byte_congr {x y : Word} (h : x.setWidth 16 = y.setWidth 16) :
    x &&& 0xff = y &&& 0xff := by
  have hm : (0xff : Word) = (BitVec.allOnes 8).setWidth 32 := rfl
  apply BitVec.eq_of_getLsbD_eq
  intro bit hb
  rw [hm, BitVec.getLsbD_and, BitVec.getLsbD_and, BitVec.getLsbD_setWidth, BitVec.getLsbD_allOnes]
  by_cases hlow : bit < 8
  · have hw : bit < 16 := by omega
    have hbit := congrArg (BitVec.getLsbD · bit) h
    simp only [BitVec.getLsbD_setWidth, hw, decide_true, Bool.true_and] at hbit
    rw [hbit]
  · simp [hlow]

theorem mod_eq_self_iff (x : Word) : x % 32 = x ↔ x.toNat < 32 := by
  rw [← BitVec.toNat_inj, BitVec.toNat_umod]
  exact Nat.mod_eq_iff_lt (by decide)

end Word

/-- The action makes no more of a literal than its low half. -/
def Action.ReadsLow : Action → Prop
  | .immediate f => ∀ a x y, x.setWidth 16 = y.setWidth 16 → f a x = f a y
  | .constant f => ∀ x y, x.setWidth 16 = y.setWidth 16 → f x = f y
  | .branch => False
  | .binary _ | .unary _ | .load _ | .store => True

theorem Operation.readsLow {o : Operation} (h : o ≠ .beq) : o.action.ReadsLow := by
  cases o with
  | beq => exact absurd rfl h
  | addi => exact fun a x y hxy => congrArg (a + ·) (Word.signExtendLow_congr hxy)
  | grub => exact fun x y hxy => Word.and_byte_congr hxy
  | _ => trivial

/-- The first `n` operands are the same, the literals after them have the same low half. -/
inductive Alike : Nat → List Word → List Word → Prop
  | nil {n : Nat} : Alike n [] []
  | register {n : Nat} {xs ys : List Word} (x : Word) (rest : Alike n xs ys) :
      Alike (n + 1) (x :: xs) (x :: ys)
  | literal {x y : Word} {xs ys : List Word} (low : x.setWidth 16 = y.setWidth 16)
      (rest : Alike 0 xs ys) : Alike 0 (x :: xs) (y :: ys)

namespace Alike

theorem of_getElem? {n : Nat} {xs ys : List Word} (hl : xs.length = ys.length)
    (hr : ∀ k x y, k < n → xs[k]? = some x → ys[k]? = some y → x = y)
    (hlow : ∀ (k : Nat) (x y : Word), xs[k]? = some x → ys[k]? = some y →
      x.setWidth 16 = y.setWidth 16) :
    Alike n xs ys := by
  induction xs generalizing n ys with
  | nil =>
    obtain rfl := List.length_eq_zero_iff.mp hl.symm
    exact .nil
  | cons x xs ih =>
    cases ys with
    | nil => cases hl
    | cons y ys =>
      have hl' : xs.length = ys.length := Nat.succ.inj hl
      cases n with
      | zero =>
        exact .literal (hlow 0 x y rfl rfl) (ih hl' nofun fun k => hlow (k + 1))
      | succ n =>
        obtain rfl := hr 0 x y (Nat.succ_pos n) rfl rfl
        exact .register x (ih hl' (fun k a b hk => hr (k + 1) a b (Nat.succ_lt_succ hk))
          fun k => hlow (k + 1))

theorem length_eq {n : Nat} {xs ys : List Word} (h : Alike n xs ys) : xs.length = ys.length := by
  induction h with
  | nil => rfl
  | register x _ ih => exact congrArg Nat.succ ih
  | literal _ _ ih => exact congrArg Nat.succ ih

theorem eq_of_length_le {n : Nat} {xs ys : List Word} (h : Alike n xs ys) (hn : xs.length ≤ n) :
    xs = ys := by
  induction h with
  | nil => rfl
  | register x _ ih => exact congrArg (x :: ·) (ih (Nat.le_of_succ_le_succ hn))
  | literal _ _ _ => cases hn

theorem last {n : Nat} {l ys : List Word} {x : Word} (h : Alike n (l ++ [x]) ys)
    (hn : l.length ≤ n) : ∃ y, ys = l ++ [y] ∧ x.setWidth 16 = y.setWidth 16 := by
  induction l generalizing n ys with
  | nil =>
    cases h with
    | register _ rest =>
      cases rest
      exact ⟨x, rfl, rfl⟩
    | literal low rest =>
      cases rest
      exact ⟨_, rfl, low⟩
  | cons r l ih =>
    cases h with
    | register _ rest =>
      obtain ⟨y, rfl, hxy⟩ := ih rest (Nat.le_of_succ_le_succ hn)
      exact ⟨y, rfl, hxy⟩
    | literal _ _ => cases hn

end Alike

theorem Action.effect_alike {a : Action} (ha : a.ReadsLow) (m : Machine) {xs ys : List Word}
    (h : Alike a.registerCount xs ys) : a.effect m xs = a.effect m ys := by
  by_cases hl : xs.length = a.arity
  · cases a with
    | binary f => rw [h.eq_of_length_le (Nat.le_of_eq hl)]
    | unary f => rw [h.eq_of_length_le (Nat.le_of_eq hl)]
    | immediate f =>
      obtain ⟨target, source, x, rfl⟩ := List.length_eq_three.mp hl
      obtain ⟨y, rfl, hxy⟩ := Alike.last (l := [target, source]) h (Nat.le_refl 2)
      simp only [effect, List.cons_append, List.nil_append, ha _ x y hxy]
    | constant f =>
      obtain ⟨target, x, rfl⟩ := List.length_eq_two.mp hl
      obtain ⟨y, rfl, hxy⟩ := Alike.last (l := [target]) h (Nat.le_refl 1)
      simp only [effect, List.cons_append, List.nil_append, ha x y hxy]
    | load f =>
      obtain ⟨target, base, x, rfl⟩ := List.length_eq_three.mp hl
      obtain ⟨y, rfl, hxy⟩ := Alike.last (l := [target, base]) h (Nat.le_refl 2)
      simp only [effect, List.cons_append, List.nil_append, Machine.locate,
        Word.signExtendLow_congr hxy]
    | store =>
      obtain ⟨source, base, x, rfl⟩ := List.length_eq_three.mp hl
      obtain ⟨y, rfl, hxy⟩ := Alike.last (l := [source, base]) h (Nat.le_refl 2)
      simp only [effect, List.cons_append, List.nil_append, Machine.locate,
        Word.signExtendLow_congr hxy]
    | branch => cases ha
  · have hl' : ys.length ≠ a.arity := h.length_eq ▸ hl
    rw [(a.effect_eq_operandCount_iff m xs).mpr hl, (a.effect_eq_operandCount_iff m ys).mpr hl']

/-- The error without the operands it quotes. -/
def ExecutionError.withoutOperands : ExecutionError → ExecutionError
  | .address mnemonic _ cause => .address mnemonic [] cause
  | e => e

/-- Two executions end in the same flow or in the same error, up to the operands an address error
quotes, and with the same machine. -/
structure EndAlike (a b : Outcome Machine ExecutionError Flow) : Prop where
  result : a.result.mapError ExecutionError.withoutOperands =
    b.result.mapError ExecutionError.withoutOperands
  state : a.state = b.state

namespace Instruction

theorem explain_withoutOperands (i : Instruction) {xs ys : List Word} (h : xs.length = ys.length)
    (t : Trap) : (i.explain xs t).withoutOperands = (i.explain ys t).withoutOperands := by
  cases t with
  | operandCount => simp only [explain, arityError, h]
  | register cause => rfl
  | address cause => rfl

theorem endAlike_of_effect_eq {i : Instruction} {xs ys : List Word} {m : Machine}
    (hl : xs.length = ys.length) (h : i.effect xs m = i.effect ys m) :
    EndAlike (i.execute xs m) (i.execute ys m) := by
  cases he : i.effect ys m with
  | ok effect =>
    rw [execute_of_effect he, execute_of_effect (h.trans he)]
    exact ⟨rfl, rfl⟩
  | error t =>
    rw [execute_of_trap he, execute_of_trap (h.trans he)]
    exact ⟨congrArg Except.error (i.explain_withoutOperands hl t), rfl⟩

end Instruction

namespace Catalog

/-- Every standard instruction has a field for each operand: room for 32 registers, for half a
word of literal, and for 32 branch targets. -/
theorem standard_fieldWidth : ∀ i ∈ standard.instructions, ∀ k < i.arity,
    if k < i.registerCount then 5 ≤ i.fieldWidth k
    else if i.operation = .beq then i.fieldWidth k = 5
    else 16 ≤ i.fieldWidth k := by
  decide +kernel

variable {i : Instruction} {operands : List Word}

theorem standard_decode_encode (hi : i ∈ standard.instructions) {k : Nat} {operand : Word}
    (hk : k < i.arity) (ho : operands[k]? = some operand) :
    ∃ f : Field, f.width = i.fieldWidth k ∧
      (i.decode (i.template.encode operands))[k]? = some (operand &&& f.mask) := by
  have hpos : 0 < i.fieldWidth k := by
    have hw := standard_fieldWidth i hi k hk
    split_ifs at hw <;> omega
  obtain ⟨f, hf, hw⟩ := Instruction.field_of_width hpos
  have ht := (Reachable.standard.separated.compiled i hi).partition
  exact ⟨f, hw, Instruction.getElem?_decode_encode ht hk hf ho⟩

theorem standard_decode_register (hi : i ∈ standard.instructions)
    (hl : operands.length = i.arity) (hr : ∀ r ∈ operands.take i.registerCount, r.toNat < 32)
    {k : Nat} (hk : k < i.registerCount) {r : Word} (ho : operands[k]? = some r) :
    (i.decode (i.template.encode operands))[k]? = some r := by
  have hka : k < i.arity := hl ▸ (List.getElem?_eq_some_iff.mp ho).1
  obtain ⟨f, hf, hd⟩ := standard_decode_encode hi hka ho
  have hw := standard_fieldWidth i hi k hka
  rw [if_pos hk] at hw
  have hlt : r.toNat < 32 := by
    refine hr r (List.mem_of_getElem? (i := k) ?_)
    rw [List.getElem?_take, if_pos hk, ho]
  rw [hd, Field.and_mask_of_lt (n := 5) hlt (hf ▸ hw)]

theorem standard_decode_alike (hi : i ∈ standard.instructions) (hl : operands.length = i.arity)
    (hr : ∀ r ∈ operands.take i.registerCount, r.toNat < 32) (hb : i.operation ≠ .beq) :
    Alike i.registerCount (i.decode (i.template.encode operands)) operands := by
  refine .of_getElem? (by rw [Instruction.length_decode, hl]) ?_ ?_
  · intro k x y hk hx hy
    rw [standard_decode_register hi hl hr hk hy] at hx
    exact (Option.some.inj hx).symm
  · intro k x y hx hy
    by_cases hk : k < i.registerCount
    · rw [standard_decode_register hi hl hr hk hy] at hx
      rw [Option.some.inj hx]
    · have hka : k < i.arity := hl ▸ (List.getElem?_eq_some_iff.mp hy).1
      obtain ⟨f, hf, hd⟩ := standard_decode_encode hi hka hy
      have hw := standard_fieldWidth i hi k hka
      rw [if_neg hk, if_neg hb] at hw
      rw [hd] at hx
      rw [← Option.some.inj hx, Field.setWidth_and_mask y (hf ▸ hw)]

theorem standard_decode_branch (hi : i ∈ standard.instructions) (hb : i.operation = .beq)
    {first second : Word} (hfirst : first.toNat < 32) (hsecond : second.toNat < 32)
    (target : Word) :
    i.decode (i.template.encode [first, second, target]) = [first, second, target % 32] := by
  have ha : i.arity = 3 := congrArg Operation.arity hb
  have hc : i.registerCount = 2 := congrArg (·.action.registerCount) hb
  have hl : [first, second, target].length = i.arity := ha.symm
  have hr : ∀ r ∈ [first, second, target].take i.registerCount, r.toNat < 32 := by
    rw [hc]
    simp [hfirst, hsecond]
  obtain ⟨x, y, z, hd⟩ := List.length_eq_three.mp
    ((i.length_decode (i.template.encode [first, second, target])).trans ha)
  have hx := standard_decode_register hi hl hr (k := 0) (by omega) rfl
  have hy := standard_decode_register hi hl hr (k := 1) (by omega) rfl
  have ht : [first, second, target][2]? = some target := rfl
  obtain ⟨f, hf, hz⟩ := standard_decode_encode hi (by omega) ht
  have hw := standard_fieldWidth i hi 2 (by omega)
  rw [if_neg (by omega), if_pos hb] at hw
  rw [Field.and_mask_of_five target (hf.trans hw)] at hz
  rw [hd] at hx hy hz ⊢
  cases hx
  cases hy
  cases hz
  rfl

end Catalog

theorem Machine.register_ofConfig (c : Config) {index : Word} (h : index.toNat < 32) :
    (Machine.ofConfig c).register index = .ok 0 := by
  simp only [register, Registers.read, ofConfig, Register.ofIndex, dif_pos h]
  simp [Functor.map, Except.map]

theorem Instruction.branch_ofConfig {i : Instruction} (hb : i.operation = .beq) (c : Config)
    {first second : Word} (hfirst : first.toNat < 32) (hsecond : second.toNat < 32)
    (target : Word) :
    i.effect [first, second, target] (.ofConfig c) = .ok (.branch target) := by
  rw [effect, hb]
  simp [Operation.action, Action.effect, Machine.register_ofConfig c hfirst,
    Machine.register_ofConfig c hsecond, bind, Except.bind, pure, Except.pure]

/-- Only branches to one target agree on every machine. -/
theorem Instruction.branch_endAlike_iff {i : Instruction} (hb : i.operation = .beq)
    {first second : Word} (hfirst : first.toNat < 32) (hsecond : second.toNat < 32)
    {x y : Word} :
    (∀ m, EndAlike (i.execute [first, second, x] m) (i.execute [first, second, y] m)) ↔
      x = y := by
  constructor
  · -- A new machine takes both branches.
    intro h
    have hm := (h (.ofConfig {})).result
    rw [execute_of_effect (branch_ofConfig hb {} hfirst hsecond x),
      execute_of_effect (branch_ofConfig hb {} hfirst hsecond y)] at hm
    simpa [Effect.flow] using hm
  · rintro rfl m
    exact ⟨rfl, rfl⟩

/-- Encode an operand list of a standard instruction whose register operands are register numbers,
look the word up, and decode it. Executing what was decoded ends as executing the original does, but
for a branch whose target does not fit its field: that is taken modulo 32, which some machine shows.
-/
theorem decoded_execution_agrees {i : Instruction} (hi : i ∈ Catalog.standard.instructions)
    {operands : List Word} (hl : operands.length = i.arity)
    (hr : ∀ r ∈ operands.take i.registerCount, r.toNat < 32) :
    ∃ word i', i.encode operands = .ok word ∧ Catalog.standard.lookup word = some i' ∧
      (i.operation ≠ .beq →
        ∀ m, EndAlike (i'.execute (i'.decode word) m) (i.execute operands m)) ∧
      (i.operation = .beq → ∀ target, operands[2]? = some target →
        (i'.decode word)[2]? = some (target % 32) ∧
        ((∀ m, EndAlike (i'.execute (i'.decode word) m) (i.execute operands m)) ↔
          target.toNat < 32)) := by
  refine ⟨i.template.encode operands, i, if_pos hl,
    Catalog.Reachable.standard.separated.lookup_encode hi operands, ?_, ?_⟩
  · intro hb m
    have ha := Catalog.standard_decode_alike hi hl hr hb
    exact Instruction.endAlike_of_effect_eq ha.length_eq
      (Action.effect_alike (Operation.readsLow hb) m ha)
  · intro hb target ht
    have ha : i.arity = 3 := congrArg Operation.arity hb
    have hc : i.registerCount = 2 := congrArg (·.action.registerCount) hb
    obtain ⟨first, second, third, rfl⟩ := List.length_eq_three.mp (hl.trans ha)
    obtain rfl : third = target := Option.some.inj ht
    rw [hc] at hr
    have hfirst := hr first (by simp)
    have hsecond := hr second (by simp)
    have hd := Catalog.standard_decode_branch hi hb hfirst hsecond third
    rw [hd]
    refine ⟨rfl, ?_⟩
    rw [Instruction.branch_endAlike_iff hb hfirst hsecond]
    exact Word.mod_eq_self_iff third

/-- A load with a negative displacement, which its field can only hold without its sign. -/
theorem decoded_execution_agrees_load :
    ∃ i ∈ Catalog.standard.instructions, i.operation = .ld ∧
      ([8, 9, -4] : List Word).length = i.arity ∧
      (∀ r ∈ ([8, 9, -4] : List Word).take i.registerCount, r.toNat < 32) ∧
      ∃ word i', i.encode [8, 9, -4] = .ok word ∧ Catalog.standard.lookup word = some i' ∧
        ∀ m, EndAlike (i'.execute (i'.decode word) m) (i.execute [8, 9, -4] m) := by
  obtain ⟨i, hi, ho⟩ : ∃ i ∈ Catalog.standard.instructions, i.operation = .ld := by
    decide +kernel
  have hl : ([8, 9, -4] : List Word).length = i.arity := (congrArg Operation.arity ho).symm
  have hc : i.registerCount = 2 := congrArg (·.action.registerCount) ho
  have hr : ∀ r ∈ ([8, 9, -4] : List Word).take i.registerCount, r.toNat < 32 := by
    rw [hc]
    simp
  obtain ⟨word, i', he, hlookup, hagree, -⟩ := decoded_execution_agrees hi hl hr
  have hb : i.operation ≠ .beq := by simp [ho]
  exact ⟨i, hi, ho, hl, hr, word, i', he, hlookup, hagree hb⟩

end WordMachine
