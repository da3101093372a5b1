import WordMachine.Catalog.Standard
import WordMachine.Proofs.EncodedBits
import WordMachine.Proofs.Overlap

namespace WordMachine

def Instruction.Compiled (i : Instruction) : Prop := ∃ d : Definition, d.compile = .ok i

theorem Instruction.Compiled.partition {i : Instruction} (h : i.Compiled) :
    i.template.Partition := by
  obtain ⟨d, hd⟩ := h
  exact d.partition_of_compile hd

def Instruction.SharesWord (a b : Instruction) : Prop :=
  ∃ word, a.template.accepts word = true ∧ b.template.accepts word = true

theorem Instruction.Compiled.overlaps_iff {a b : Instruction} (ha : a.Compiled) (hb : b.Compiled) :
    a.template.overlaps b.template = true ↔ a.SharesWord b :=
  ha.partition.overlaps_iff hb.partition

namespace Catalog

/-- What clients can make of an empty catalog or of the standard one by registering compiled
instructions and adding the standard ones, whether a call succeeds or fails. -/
inductive Reachable : Catalog → Prop
  | empty (name description : String) : Reachable { name, description }
  | standard : Reachable standard
  | register {c : Catalog} {i : Instruction} (hc : Reachable c) (hi : i.Compiled) :
      Reachable (c.register i).state
  | populate {c : Catalog} (hc : Reachable c) : Reachable c.addStandard.state

/-- All entries are compiled, and no entry overlaps a later one. -/
structure Separated (c : Catalog) : Prop where
  compiled : ∀ i ∈ c.instructions, i.Compiled
  apart : c.instructions.Pairwise fun a b => a.template.overlaps b.template = false

theorem Separated.empty (name description : String) :
    Separated { name, description } :=
  ⟨nofun, .nil⟩

theorem Separated.register {c : Catalog} (hc : c.Separated) {i : Instruction} (hi : i.Compiled) :
    (c.register i).state.Separated := by
  cases hr : (c.register i).result with
  | error e =>
    rw [state_of_register_error hr]
    exact hc
  | ok _ =>
    have hapart := register_ok_iff.mp hr
    rw [register_of_apart hapart]
    refine ⟨?_, List.pairwise_append.mpr ⟨hc.apart, List.pairwise_singleton _ _, ?_⟩⟩
    · intro e he
      rcases List.mem_append.mp he with he | he
      · exact hc.compiled e he
      · rw [List.mem_singleton.mp he]
        exact hi
    · intro e he i' hi'
      rw [List.mem_singleton.mp hi']
      exact hapart e he

theorem Separated.define {c : Catalog} (hc : c.Separated) (d : Definition) :
    (c.define d).state.Separated := by
  rw [Catalog.define]
  cases hd : d.compile with
  | error e => exact hc
  | ok i => exact hc.register ⟨d, hd⟩

theorem defineAll_preserves {P : Catalog → Prop} (step : ∀ c d, P c → P (c.define d).state)
    {c : Catalog} (h : P c) (ds : List Definition) : P (c.defineAll ds).state := by
  induction ds generalizing c with
  | nil => exact h
  | cons d ds ih =>
    unfold defineAll
    dsimp only
    split
    · exact step c d h
    · exact ih (step c d h)

theorem addStandard_state (c : Catalog) :
    c.addStandard.state = (c.defineAll standardDefinitions).state := by
  unfold addStandard
  dsimp only
  split <;> rfl

theorem Separated.addStandard {c : Catalog} (hc : c.Separated) :
    c.addStandard.state.Separated := by
  rw [addStandard_state]
  exact defineAll_preserves (fun _ d h => h.define d) hc _

/-- No standard instruction is refused, so all of them are there in their order. -/
theorem standard_complete :
    standard.instructions.map Instruction.toDefinition = standardDefinitions := by
  decide +kernel

example : ∀ i ∈ [Instruction.addi, .ld, .st, .beq, .grub], i ∈ standard.instructions := by
  decide +kernel

theorem Reachable.separated {c : Catalog} (h : Reachable c) : c.Separated := by
  induction h with
  | empty name description => exact .empty name description
  | standard => exact (Separated.empty _ _).addStandard
  | register _ hi ih => exact ih.register hi
  | populate _ ih => exact ih.addStandard

theorem Separated.filter_accepts {c : Catalog} (hc : c.Separated) {i : Instruction}
    (hi : i ∈ c.instructions) {word : Word} (hw : i.template.accepts word = true) :
    c.instructions.filter (·.template.accepts word) = [i] := by
  obtain ⟨before, after, hl⟩ := List.append_of_mem hi
  have hapart := hc.apart
  rw [hl] at hapart ⊢
  obtain ⟨-, htail, hcross⟩ := List.pairwise_append.mp hapart
  have hbefore : ∀ e ∈ before, ¬ e.template.accepts word = true := by
    intro e he ha
    have ho := Template.overlaps_of_accepts ha hw
    rw [hcross e he i List.mem_cons_self] at ho
    cases ho
  have hafter : ∀ e ∈ after, ¬ e.template.accepts word = true := by
    intro e he ha
    have ho := Template.overlaps_of_accepts hw ha
    rw [List.rel_of_pairwise_cons htail he] at ho
    cases ho
  rw [List.filter_append,
    List.filter_cons_of_pos (p := fun e : Instruction => e.template.accepts word) hw,
    List.filter_eq_nil_iff.mpr hbefore, List.filter_eq_nil_iff.mpr hafter, List.nil_append]

theorem Separated.lookup_accepted {c : Catalog} (hc : c.Separated) {i : Instruction}
    (hi : i ∈ c.instructions) {word : Word} (hw : i.template.accepts word = true) :
    c.lookup word = some i := by
  rw [lookup, ← List.head?_filter, hc.filter_accepts hi hw, List.head?_cons]

theorem Separated.lookup_encode {c : Catalog} (hc : c.Separated) {i : Instruction}
    (hi : i ∈ c.instructions) (operands : List Word) :
    c.lookup (i.template.encode operands) = some i :=
  hc.lookup_accepted hi ((hc.compiled i hi).partition.accepts_encode operands)

/-- In a catalog that clients can build, the right number of operands always encodes, and the
word belongs to the entry that encoded it and to no other. -/
theorem encoded_word_resolves {c : Catalog} (hc : Reachable c) {i : Instruction}
    (hi : i ∈ c.instructions) {operands : List Word} (hl : operands.length = i.arity) :
    ∃ word, i.encode operands = .ok word ∧ i.template.accepts word = true ∧
      c.lookup word = some i ∧ c.instructions.filter (·.template.accepts word) = [i] := by
  have ha := (hc.separated.compiled i hi).partition.accepts_encode operands
  refine ⟨i.template.encode operands, if_pos hl, ha, ?_, ?_⟩
  · exact hc.separated.lookup_encode hi operands
  · exact hc.separated.filter_accepts hi ha

/-- Adding the standard instructions a second time is refused. An operand list of negative numbers
and numbers too wide for their fields still resolves. -/
theorem encoded_word_resolves_addi :
    ∃ i ∈ standard.addStandard.state.instructions, i.operation = .addi ∧
      [-1, 70000, -70000].length = i.arity ∧
      ∃ word, i.encode [-1, 70000, -70000] = .ok word ∧ i.template.accepts word = true ∧
        standard.addStandard.state.lookup word = some i ∧
        standard.addStandard.state.instructions.filter (·.template.accepts word) = [i] := by
  obtain ⟨i, hi, ho⟩ :
      ∃ i ∈ standard.addStandard.state.instructions, i.operation = .addi := by decide +kernel
  have hl : [-1, 70000, -70000].length = i.arity := by
    rw [Instruction.arity, ho]
    rfl
  exact ⟨i, hi, ho, hl, encoded_word_resolves (.populate .standard) hi hl⟩

end Catalog

end WordMachine
