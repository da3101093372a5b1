import Mathlib.Data.List.Forall2
import WordMachine.Proofs.UniqueReading

namespace WordMachine

/-- One character twice, or an ASCII letter in its two cases. -/
def SameLetter (c d : Char) : Prop :=
  c = d ∨ ∃ n < 26,
    (c.toNat = 'A'.toNat + n ∧ d.toNat = 'a'.toNat + n) ∨
      (c.toNat = 'a'.toNat + n ∧ d.toNat = 'A'.toNat + n)

def SameButCase (a b : String) : Prop := List.Forall₂ SameLetter a.toList b.toList

theorem toNat_toLower (c : Char) :
    c.toLower.toNat = if 65 ≤ c.toNat ∧ c.toNat ≤ 90 then c.toNat + 32 else c.toNat := by
  have hupper : c.val ≥ 'A'.val ∧ c.val ≤ 'Z'.val ↔ 65 ≤ c.toNat ∧ c.toNat ≤ 90 := by
    rw [ge_iff_le, UInt32.le_iff_toNat_le, UInt32.le_iff_toNat_le]
    rfl
  unfold Char.toLower
  split
  · rename_i h
    obtain ⟨h65, h90⟩ := hupper.mp h
    rw [if_pos ⟨h65, h90⟩]
    change (c.val + 32).toNat = c.toNat + 32
    rw [UInt32.toNat_add, Char.toNat_val]
    exact Nat.mod_eq_of_lt (Nat.lt_of_le_of_lt (Nat.add_le_add_right h90 32) (by decide))
  · rename_i h
    rw [if_neg (mt hupper.mpr h)]

theorem toLower_eq_iff (c d : Char) : c.toLower = d.toLower ↔ SameLetter c d := by
  have hA : 'A'.toNat = 65 := rfl
  have ha : 'a'.toNat = 97 := rfl
  rw [← Char.toNat_inj, toNat_toLower, toNat_toLower, SameLetter, ← Char.toNat_inj, hA, ha]
  constructor
  · intro h
    split at h <;> split at h
    · exact .inl (by omega)
    · exact .inr ⟨c.toNat - 65, by omega, .inl (by omega)⟩
    · exact .inr ⟨d.toNat - 65, by omega, .inr (by omega)⟩
    · exact .inl h
  · intro h
    rcases h with h | ⟨n, hn, ⟨hc, hd⟩ | ⟨hc, hd⟩⟩
    · rw [h]
    · rw [if_pos (by omega), if_neg (by omega)]
      omega
    · rw [if_neg (by omega), if_pos (by omega)]
      omega

theorem lowercase_eq_iff (a b : String) : a.toLower = b.toLower ↔ SameButCase a b := by
  change a.map Char.toLower = b.map Char.toLower ↔ List.Forall₂ SameLetter a.toList b.toList
  rw [← String.toList_inj, String.toList_map, String.toList_map, ← List.forall₂_eq_eq_eq,
    List.forall₂_map_left_iff, List.forall₂_map_right_iff]
  simp only [toLower_eq_iff]

namespace Catalog

inductive Addition
  | register (i : Instruction)
  | populate
  deriving DecidableEq

def afterAddition (c : Catalog) : Addition → Catalog
  | .register i => (c.register i).state
  | .populate => c.addStandard.state

/-- What calls made one after the other leave behind, whether they succeed or fail. -/
def afterAdditions (c : Catalog) (calls : List Addition) : Catalog := calls.foldl afterAddition c

theorem prefix_register (c : Catalog) (i : Instruction) :
    c.instructions <+: (c.register i).state.instructions := by
  cases hr : (c.register i).result with
  | error e => simp [state_of_register_error hr]
  | ok _ => simp [register_of_apart (register_ok_iff.mp hr)]

theorem prefix_define (c : Catalog) (d : Definition) :
    c.instructions <+: (c.define d).state.instructions := by
  rw [define]
  cases d.compile with
  | error e => exact List.prefix_refl _
  | ok i => exact c.prefix_register i

theorem prefix_addStandard (c : Catalog) : c.instructions <+: c.addStandard.state.instructions := by
  rw [addStandard_state]
  refine defineAll_preserves (P := fun next => c.instructions <+: next.instructions) ?_
    (List.prefix_refl _) _
  intro next d h
  exact h.trans (next.prefix_define d)

theorem prefix_afterAddition (c : Catalog) (call : Addition) :
    c.instructions <+: (c.afterAddition call).instructions := by
  cases call with
  | register i => exact c.prefix_register i
  | populate => exact c.prefix_addStandard

theorem prefix_afterAdditions (c : Catalog) (calls : List Addition) :
    c.instructions <+: (c.afterAdditions calls).instructions := by
  induction calls generalizing c with
  | nil => exact List.prefix_refl _
  | cons call calls ih => exact (c.prefix_afterAddition call).trans (ih _)

variable {c : Catalog} {i : Instruction}

theorem register_error_iff {e : CatalogError} :
    (c.register i).result = .error e ↔
      ∃ before existing after, c.instructions = before ++ existing :: after ∧
        existing.template.overlaps i.template = true ∧
        (∀ a ∈ before, a.template.overlaps i.template = false) ∧
        e = .duplicateEncoding i.mnemonic existing.mnemonic := by
  constructor
  · intro h
    cases hc : c.collision? i with
    | none =>
      rw [register_of_apart (collision?_eq_none_iff.mp hc)] at h
      cases h
    | some existing =>
      obtain ⟨ho, before, after, hl, hbefore⟩ := collision?_eq_some_iff.mp hc
      rw [register_of_collision hc] at h
      exact ⟨before, existing, after, hl, ho, hbefore, (Except.error.inj h).symm⟩
  · rintro ⟨before, existing, after, hl, ho, hbefore, rfl⟩
    rw [register_of_collision (collision?_eq_some_iff.mpr ⟨ho, before, after, hl, hbefore⟩)]

theorem get?_eq_some_iff {mnemonic : String} {e : Instruction} :
    c.get? mnemonic = some e ↔
      SameButCase e.mnemonic mnemonic ∧ ∃ j : Nat, c.instructions[j]? = some e ∧
        ∀ k < j, ∀ e' : Instruction, c.instructions[k]? = some e' →
          ¬ SameButCase e'.mnemonic mnemonic := by
  simp only [get?, List.find?_eq_some_iff_getElem, beq_iff_eq, Bool.not_eq_true',
    beq_eq_false_iff_ne, ne_eq, lowercase_eq_iff]
  refine and_congr_right fun _ => exists_congr fun j => ?_
  constructor
  · intro h
    obtain ⟨hj, rfl, hearlier⟩ := h
    refine ⟨List.getElem?_eq_getElem hj, fun k hk e' he' => ?_⟩
    obtain ⟨_, rfl⟩ := List.getElem?_eq_some_iff.mp he'
    exact hearlier k hk
  · intro h
    obtain ⟨he, hearlier⟩ := h
    obtain ⟨hj, rfl⟩ := List.getElem?_eq_some_iff.mp he
    exact ⟨hj, rfl, fun k hk => hearlier k hk _ (List.getElem?_eq_getElem _)⟩

namespace Separated

variable (hc : c.Separated)
include hc

theorem register_ok_iff (hi : i.Compiled) :
    (c.register i).result = .ok () ↔ ∀ e ∈ c.instructions, ¬ e.SharesWord i := by
  rw [Catalog.register_ok_iff]
  refine forall₂_congr fun e he => ?_
  rw [← (hc.compiled e he).overlaps_iff hi, Bool.not_eq_true]

theorem register_error (hi : i.Compiled) {e : CatalogError}
    (h : (c.register i).result = .error e) :
    ∃ before existing after, c.instructions = before ++ existing :: after ∧
      existing.SharesWord i ∧ (∀ a ∈ before, ¬ a.SharesWord i) ∧
      e = .duplicateEncoding i.mnemonic existing.mnemonic := by
  obtain ⟨before, existing, after, hl, ho, hbefore, he⟩ := register_error_iff.mp h
  have hcompiled : ∀ a ∈ before ++ existing :: after, a.Compiled := hl ▸ hc.compiled
  refine ⟨before, existing, after, hl, ?_, fun a ha => ?_, he⟩
  · exact ((hcompiled existing (by simp)).overlaps_iff hi).mp ho
  · rw [← (hcompiled a (by simp [ha])).overlaps_iff hi, hbefore a ha]
    exact Bool.false_ne_true

theorem lookup_register (h : (c.register i).result = .ok ()) (word : Word) :
    (c.register i).state.lookup word =
      if i.template.accepts word then some i else c.lookup word := by
  have hapart := Catalog.register_ok_iff.mp h
  have hlookup : (c.register i).state.lookup word =
      (c.lookup word).or (if i.template.accepts word then some i else none) := by
    rw [register_of_apart hapart, lookup, List.find?_append, List.find?_singleton]
    rfl
  rw [hlookup]
  cases hw : i.template.accepts word with
  | false => simp
  | true =>
    cases hold : c.lookup word with
    | none => rfl
    | some e =>
      obtain ⟨he, hwe⟩ := hc.lookup_eq_some_iff.mp hold
      have ho := Template.overlaps_of_accepts hwe hw
      rw [hapart e he] at ho
      cases ho

/-- Entries at two positions are not the same, so an earlier one of the same mnemonic is another
one. -/
theorem get?_own_iff {j : Nat} {e : Instruction} (he : c.instructions[j]? = some e) :
    c.get? e.mnemonic = some e ↔
      ∀ k < j, ∀ e', c.instructions[k]? = some e' → ¬ SameButCase e'.mnemonic e.mnemonic := by
  rw [get?_eq_some_iff]
  constructor
  · intro h
    obtain ⟨-, k, hk, hearlier⟩ := h
    have hsame : k = j := (hc.overlaps_iff hk he).mp (Template.overlaps_self _)
    rw [← hsame]
    exact hearlier
  · intro h
    exact ⟨(lowercase_eq_iff _ _).mp rfl, j, he, h⟩

end Separated

/-- A compiled instruction is accepted into a catalog that clients can build if and only if it
shares no word with an entry, and is then the reading of its own words alone. A refusal names the
earliest entry that shares a word, and changes nothing. What a search has found it goes on to find,
and an entry is found by its mnemonic if and only if no earlier one has the same, up to the case of
ASCII letters. -/
theorem registration_conservative (reachable : Reachable c) (compiled : i.Compiled) :
    ((c.register i).result = .ok () ↔ ∀ e ∈ c.instructions, ¬ e.SharesWord i) ∧
    ((c.register i).result = .ok () →
      (c.register i).state = { c with instructions := c.instructions ++ [i] } ∧
        ∀ word, (c.register i).state.lookup word =
          if i.template.accepts word then some i else c.lookup word) ∧
    (∀ error, (c.register i).result = .error error → (c.register i).state = c ∧
      ∃ before existing after, c.instructions = before ++ existing :: after ∧
        existing.SharesWord i ∧ (∀ a ∈ before, ¬ a.SharesWord i) ∧
        error = .duplicateEncoding i.mnemonic existing.mnemonic) ∧
    (∀ calls word e, c.lookup word = some e → (c.afterAdditions calls).lookup word = some e) ∧
    (∀ calls mnemonic e, c.get? mnemonic = some e →
      (c.afterAdditions calls).get? mnemonic = some e) ∧
    ∀ (j : Nat) (e : Instruction), c.instructions[j]? = some e →
      (c.get? e.mnemonic = some e ↔ ∀ k < j, ∀ e' : Instruction,
        c.instructions[k]? = some e' → ¬ SameButCase e'.mnemonic e.mnemonic) := by
  have hs := reachable.separated
  refine ⟨hs.register_ok_iff compiled, fun h => ?_, fun error h => ?_, ?_, ?_, ?_⟩
  · exact ⟨by rw [register_of_apart (register_ok_iff.mp h)], hs.lookup_register h⟩
  · exact ⟨state_of_register_error h, hs.register_error compiled h⟩
  · intro calls word e h
    exact (c.prefix_afterAdditions calls).find?_eq_some h
  · intro calls mnemonic e h
    exact (c.prefix_afterAdditions calls).find?_eq_some h
  · intro j e he
    exact hs.get?_own_iff he

/-- Another subtraction, of almost the same name, with words of its own. -/
def namesake : Instruction :=
  { less with
    mnemonic := "Less"
    usage := "Less $t0,$t1,$t2"
    encoding := "111111 sssss ttttt fffff 00000 000010"
    template := { less.template with value := 0xfc000002 } }

/-- Each of the two is found by its words. The first one keeps its name, also when it has stopped
an attempt to add the standard instructions. -/
theorem registration_conservative_namesake :
    ∃ c : Catalog, Reachable c ∧ namesake.Compiled ∧ (c.register namesake).result = .ok () ∧
      (c.register namesake).state.lookup 0xfc221802 = some namesake ∧
      (c.register namesake).state.lookup 0x00221802 = some less ∧
      (c.afterAdditions [.register namesake, .populate]).get? "LESS" = some less := by
  have hless : less.Compiled := ⟨less.toDefinition, by decide +kernel⟩
  have hnamesake : namesake.Compiled := ⟨namesake.toDefinition, by decide +kernel⟩
  have hc : Reachable (register { name := "Less", description := "" } less).state :=
    .register (.empty _ _) hless
  have hapart : ∀ e ∈ (register { name := "Less", description := "" } less).state.instructions,
      e.template.overlaps namesake.template = false := by
    decide +kernel
  have hnext := register_ok_iff.mpr hapart
  obtain ⟨-, haccepted, -, -, hkept, hown⟩ := registration_conservative hc hnamesake
  obtain ⟨-, hlookup⟩ := haccepted hnext
  refine ⟨_, hc, hnamesake, hnext, ?_, ?_, hkept _ _ _ ((hown 0 less rfl).mpr nofun)⟩
  · rw [hlookup, if_pos (by decide)]
  · rw [hlookup, if_neg (by decide)]
    decide +kernel

end Catalog

end WordMachine
