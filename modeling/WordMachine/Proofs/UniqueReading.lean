import Mathlib.Data.List.Basic
import WordMachine.Proofs.ReachableCatalogs

namespace WordMachine

namespace Catalog

variable {c : Catalog}

/-- Also when the entries are compared in the order opposite to that of their registration. -/
theorem Separated.overlaps_iff (hc : c.Separated) {j k : Nat} {a b : Instruction}
    (ha : c.instructions[j]? = some a) (hb : c.instructions[k]? = some b) :
    a.template.overlaps b.template = true ↔ j = k := by
  obtain ⟨hj, rfl⟩ := List.getElem?_eq_some_iff.mp ha
  obtain ⟨hk, rfl⟩ := List.getElem?_eq_some_iff.mp hb
  have hapart := List.pairwise_iff_getElem.mp hc.apart
  constructor
  · intro ho
    rcases Nat.lt_trichotomy j k with hlt | heq | hgt
    · rw [hapart j k hj hk hlt] at ho
      cases ho
    · exact heq
    · rw [Template.overlaps_comm, hapart k j hk hj hgt] at ho
      cases ho
  · rintro rfl
    exact Template.overlaps_self _

theorem Separated.position_unique (hc : c.Separated) {j k : Nat} {a b : Instruction}
    (ha : c.instructions[j]? = some a) (hb : c.instructions[k]? = some b) {word : Word}
    (hwa : a.template.accepts word = true) (hwb : b.template.accepts word = true) : j = k :=
  (hc.overlaps_iff ha hb).mp (Template.overlaps_of_accepts hwa hwb)

theorem Separated.lookup_eq_some_iff (hc : c.Separated) {word : Word} {i : Instruction} :
    c.lookup word = some i ↔ i ∈ c.instructions ∧ i.template.accepts word = true := by
  constructor
  · intro h
    exact ⟨List.mem_of_find?_eq_some h, by simpa using List.find?_some h⟩
  · rintro ⟨hi, hw⟩
    exact hc.lookup_accepted hi hw

/-- In a catalog that clients can build, templates at different positions do not overlap, no word
is accepted at two positions, and looking a word up finds the entry that accepts it, wherever it
stands. -/
theorem lookup_unambiguous (hc : Reachable c) :
    (∀ (j k : Nat) (a b : Instruction), c.instructions[j]? = some a →
      c.instructions[k]? = some b → (a.template.overlaps b.template = true ↔ j = k)) ∧
    (∀ (word : Word) (j k : Nat) (a b : Instruction), c.instructions[j]? = some a →
      c.instructions[k]? = some b → a.template.accepts word = true →
      b.template.accepts word = true → j = k) ∧
    (∀ (word : Word) (i : Instruction),
      c.lookup word = some i ↔ i ∈ c.instructions ∧ i.template.accepts word = true) := by
  have hs := hc.separated
  refine ⟨?_, ?_, ?_⟩
  · intro j k a b ha hb
    exact hs.overlaps_iff ha hb
  · intro word j k a b ha hb hwa hwb
    exact hs.position_unique ha hb hwa hwb
  · intro word i
    exact hs.lookup_eq_some_iff

/-- A subtraction of a client's own. -/
def less : Instruction where
  operation := .sub
  mnemonic := "LESS"
  usage := "LESS $t0,$t1,$t2"
  description := "Subtract: rd = rs - rt."
  format := .r
  encoding := "000000 sssss ttttt fffff 00000 000010"
  template := ⟨0xfc0007ff, 2, #v[some ⟨11, 5⟩, some ⟨21, 5⟩, some ⟨16, 5⟩]⟩

/-- A subtraction that is there already stops the standard instructions after the first one. -/
theorem lookup_unambiguous_stopped :
    ∃ c : Catalog, Reachable c.addStandard.state ∧
      c.addStandard.result = .error (.duplicateEncoding "SUB" "LESS") ∧
      c.addStandard.state.size = 2 ∧ c.addStandard.state.lookup 0x00221802 = some less ∧
      ∀ (word : Word) (j k : Nat) (a b : Instruction),
        c.addStandard.state.instructions[j]? = some a →
        c.addStandard.state.instructions[k]? = some b → a.template.accepts word = true →
        b.template.accepts word = true → j = k := by
  have hi : less.Compiled := ⟨less.toDefinition, by cbv⟩
  have hc : Reachable
      (Catalog.register { name := "Less", description := "" } less).state.addStandard.state :=
    .populate (.register (.empty _ _) hi)
  obtain ⟨-, hone, hlookup⟩ := lookup_unambiguous hc
  refine ⟨_, hc, ?_, ?_, (hlookup _ less).mpr ⟨?_, ?_⟩, hone⟩
  all_goals decide +kernel

end Catalog

end WordMachine
