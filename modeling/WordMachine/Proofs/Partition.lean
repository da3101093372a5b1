import Mathlib.Data.List.TakeWhile
import WordMachine.Instruction

namespace WordMachine

namespace Template

/-- Symbols are written from the highest bit down. -/
def symbolAt (symbols : List Symbol) (bit : Nat) : Option Symbol := symbols.reverse[bit]?

theorem mem_of_symbolAt {symbols : List Symbol} {bit : Nat} {s : Symbol}
    (h : symbolAt symbols bit = some s) : s ∈ symbols :=
  List.mem_reverse.mp (List.mem_of_getElem? h)

theorem symbolAt_isSome {symbols : List Symbol} {bit : Nat} :
    (symbolAt symbols bit).isSome ↔ bit < symbols.length := by
  simp [symbolAt]

/-- The run of an operand is stopped by another symbol, and only the end of the symbols stops the
search for it before it has begun. -/
theorem fieldOf_eq (slot : Slot) (symbols : List Symbol) :
    ∃ left width lower, symbols = left ++ (List.replicate width (.operand slot) ++ lower) ∧
      .operand slot ∉ left ∧ lower.head? ≠ some (.operand slot) ∧ (width = 0 → lower = []) ∧
      fieldOf slot symbols =
        if .operand slot ∈ lower then .error (.splitField slot)
        else if width = 0 then .ok none
        else .ok (some ⟨lower.length, width⟩) := by
  generalize hl : symbols.takeWhile (· != .operand slot) = left
  generalize hf : symbols.dropWhile (· != .operand slot) = fromRun
  generalize hr : fromRun.takeWhile (· == .operand slot) = run
  generalize hw : fromRun.dropWhile (· == .operand slot) = lower
  have hsymbols : symbols = left ++ fromRun := by
    rw [← hl, ← hf, List.takeWhile_append_dropWhile]
  have hfrom : fromRun = run ++ lower := by
    rw [← hr, ← hw, List.takeWhile_append_dropWhile]
  have hleft : .operand slot ∉ left := by
    intro hm
    rw [← hl] at hm
    simpa using List.mem_takeWhile_imp hm
  have hrun : run = List.replicate run.length (.operand slot) := by
    refine List.eq_replicate_iff.mpr ⟨rfl, fun s hs => ?_⟩
    rw [← hr] at hs
    simpa using List.mem_takeWhile_imp hs
  have hlower : lower.head? ≠ some (.operand slot) := by
    intro hs
    have hstop := List.head?_dropWhile_not (· == Symbol.operand slot) fromRun
    rw [hw, hs] at hstop
    simp at hstop
  refine ⟨left, run.length, lower, by rw [hsymbols, hfrom, ← hrun], hleft, hlower, ?_, ?_⟩
  · intro hzero
    rw [List.length_eq_zero_iff.mp hzero, List.nil_append] at hfrom
    cases hs : lower.head? with
    | none => exact List.head?_eq_none_iff.mp hs
    | some s =>
      have hstart := List.head?_dropWhile_not (· != Symbol.operand slot) symbols
      rw [hf, hfrom, hs] at hstart
      rw [hs, show s = .operand slot by simpa using hstart] at hlower
      exact absurd rfl hlower
  · simp only [fieldOf, hf, hr, hw, List.length_eq_zero_iff]

theorem run_of_fieldOf {slot : Slot} {symbols : List Symbol} {field : Option Field}
    (h : fieldOf slot symbols = .ok field) :
    (field = none ∧ .operand slot ∉ symbols) ∨
      ∃ left width lower,
        symbols = left ++ (List.replicate width (.operand slot) ++ lower) ∧ 0 < width ∧
          .operand slot ∉ left ∧ .operand slot ∉ lower ∧ field = some ⟨lower.length, width⟩ := by
  obtain ⟨left, width, lower, hsymbols, hleft, -, hempty, heq⟩ := fieldOf_eq slot symbols
  rw [heq] at h
  split at h
  · cases h
  · rename_i hlower
    split at h
    · rename_i hzero
      cases h
      refine .inl ⟨rfl, ?_⟩
      rwa [hsymbols, hempty hzero, hzero, List.replicate_zero, List.append_nil, List.append_nil]
    · rename_i hne
      cases h
      exact .inr ⟨left, width, lower, hsymbols, Nat.pos_of_ne_zero hne, hleft, hlower, rfl⟩

theorem covers_iff_of_fieldOf {slot : Slot} {symbols : List Symbol} {field : Option Field}
    (h : fieldOf slot symbols = .ok field) (bit : Nat) :
    field.any (·.covers bit) = true ↔ symbolAt symbols bit = some (.operand slot) := by
  rcases run_of_fieldOf h with ⟨rfl, hnot⟩ | ⟨left, width, lower, rfl, -, hleft, hlower, rfl⟩
  · constructor
    · intro hc
      cases hc
    · intro hs
      exact absurd (mem_of_symbolAt hs) hnot
  · have hl (i : Nat) : lower.reverse[i]? ≠ some (Symbol.operand slot) := fun hi =>
      hlower (List.mem_reverse.mp (List.mem_of_getElem? hi))
    have hr (i : Nat) : left.reverse[i]? ≠ some (Symbol.operand slot) := fun hi =>
      hleft (List.mem_reverse.mp (List.mem_of_getElem? hi))
    simp only [symbolAt, Option.any_some, Field.covers, List.reverse_append,
      List.reverse_replicate, Bool.and_eq_true, decide_eq_true_eq]
    by_cases h1 : bit < lower.length
    · rw [List.append_assoc, List.getElem?_append_left (by simpa using h1)]
      exact ⟨fun hc => absurd hc.1 (by omega), fun hs => absurd hs (hl bit)⟩
    · rw [List.append_assoc, List.getElem?_append_right (by simpa using h1), List.length_reverse]
      by_cases h2 : bit - lower.length < width
      · rw [List.getElem?_append_left (by simpa using h2)]
        simp only [List.getElem?_replicate, h2, ↓reduceIte, iff_true]
        omega
      · rw [List.getElem?_append_right (by simpa using h2)]
        exact ⟨fun hc => absurd hc.2 (by omega), fun hs => absurd hs (hr _)⟩

theorem field_bounds_of_fieldOf {slot : Slot} {symbols : List Symbol} {field : Field}
    (h : fieldOf slot symbols = .ok (some field)) :
    0 < field.width ∧ field.lo + field.width ≤ symbols.length := by
  rcases run_of_fieldOf h with ⟨hn, -⟩ | ⟨left, width, lower, rfl, hw, -, -, hf⟩
  · cases hn
  · obtain rfl := Option.some.inj hf
    simp only [List.length_append, List.length_replicate]
    omega

theorem getLsbD_bitsWhere (p : Symbol → Bool) {symbols : List Symbol} (h : symbols.length ≤ 32)
    (bit : Nat) : (bitsWhere p symbols).getLsbD bit = (symbolAt symbols bit).any p := by
  simp only [bitsWhere, BitVec.getLsbD_setWidth, BitVec.getLsbD_ofBoolListBE, List.length_map,
    symbolAt]
  by_cases hb : bit < symbols.length
  · rw [List.getElem?_reverse hb]
    have hi : symbols.length - 1 - bit < symbols.length := by omega
    have hw : bit < 32 := by omega
    simp [hb, hw, hi]
  · simp [hb]

/-- The template says of every bit of a word what these 32 symbols say. -/
structure Describes (t : Template) (symbols : List Symbol) : Prop where
  length : symbols.length = 32
  mask (bit : Nat) : t.mask.getLsbD bit = (symbolAt symbols bit).any Symbol.isBit
  value (bit : Nat) : t.value.getLsbD bit = (symbolAt symbols bit).any Symbol.isOne
  field (slot : Slot) : fieldOf slot symbols = .ok (t.field? slot.index)

theorem describes_of_ofSymbols {symbols : List Symbol} {t : Template}
    (hl : symbols.length = 32) (h : ofSymbols symbols = .ok t) : t.Describes symbols := by
  obtain ⟨first, h1, h⟩ := except_bind_ok.mp h
  obtain ⟨second, h2, h⟩ := except_bind_ok.mp h
  obtain ⟨third, h3, h⟩ := except_bind_ok.mp h
  cases h
  refine ⟨hl, getLsbD_bitsWhere _ hl.le, getLsbD_bitsWhere _ hl.le, fun slot => ?_⟩
  cases slot with
  | first => exact h1
  | second => exact h2
  | third => exact h3

theorem map_toChar_of_readSymbols {chars : List Char} {symbols : List Symbol}
    (h : readSymbols chars = .ok symbols) : symbols.map Symbol.toChar = chars := by
  induction chars generalizing symbols with
  | nil =>
    cases h
    rfl
  | cons c cs ih =>
    unfold readSymbols at h
    cases hc : Symbol.ofChar? c with
    | none =>
      rw [hc] at h
      cases h
    | some s =>
      cases hr : readSymbols cs with
      | error e =>
        rw [hc, hr] at h
        cases h
      | ok rest =>
        rw [hc, hr] at h
        cases h
        rw [List.map_cons, Symbol.toChar_of_ofChar? hc, ih hr]

theorem mem_map_toChar_iff {symbols : List Symbol} {s : Symbol} :
    s.toChar ∈ symbols.map Symbol.toChar ↔ s ∈ symbols := by
  simp only [List.mem_map, Symbol.toChar_inj, exists_eq_right]

theorem describes_of_read {text : String} {t : Template} (h : read text = .ok t) :
    ∃ symbols, readSymbols (significant text) = .ok symbols ∧ t.Describes symbols := by
  unfold read at h
  dsimp only at h
  split at h
  · cases h
  · rename_i hl
    obtain ⟨symbols, hs, h⟩ := except_bind_ok.mp h
    have hlen : symbols.length = (significant text).length := by
      rw [← map_toChar_of_readSymbols hs, List.length_map]
    exact ⟨symbols, hs, describes_of_ofSymbols (by omega) h⟩

/-- Each bit of a word is fixed or belongs to exactly one field, and the fields lie inside the
word. -/
structure Partition (t : Template) : Prop where
  value_fixed {bit : Nat} : t.value.getLsbD bit = true → t.mask.getLsbD bit = true
  bounds {k : Nat} {f : Field} : t.field? k = some f → 0 < f.width ∧ f.lo + f.width ≤ 32
  free {k : Nat} {f : Field} {bit : Nat} :
    t.field? k = some f → f.covers bit = true → t.mask.getLsbD bit = false
  apart {j k : Nat} {f g : Field} {bit : Nat} :
    t.field? j = some f → t.field? k = some g → f.covers bit = true → g.covers bit = true → j = k
  total {bit : Nat} : bit < 32 →
    t.mask.getLsbD bit = true ∨ ∃ k f, t.field? k = some f ∧ f.covers bit = true

theorem slot_of_field? {t : Template} {k : Nat} {f : Field} (h : t.field? k = some f) :
    ∃ slot : Slot, slot.index = k := by
  apply Slot.exists_index
  by_contra hk
  simp [field?, hk] at h

theorem Describes.symbol_of_covers {t : Template} {symbols : List Symbol}
    (h : t.Describes symbols) {slot : Slot} {f : Field} {bit : Nat}
    (hf : t.field? slot.index = some f) (hc : f.covers bit = true) :
    symbolAt symbols bit = some (.operand slot) := by
  have hs := h.field slot
  rw [hf] at hs
  exact (covers_iff_of_fieldOf hs bit).mp hc

theorem Describes.partition {t : Template} {symbols : List Symbol} (h : t.Describes symbols) :
    t.Partition where
  value_fixed {bit} hv := by
    rw [h.value] at hv
    rw [h.mask]
    cases hs : symbolAt symbols bit with
    | none => simp [hs] at hv
    | some s => cases s <;> simp_all [Symbol.isOne, Symbol.isBit]
  bounds {k f} hf := by
    obtain ⟨slot, rfl⟩ := slot_of_field? hf
    have hs := h.field slot
    rw [hf] at hs
    rw [← h.length]
    exact field_bounds_of_fieldOf hs
  free {k f bit} hf hc := by
    obtain ⟨slot, rfl⟩ := slot_of_field? hf
    rw [h.mask, h.symbol_of_covers hf hc]
    rfl
  apart {j k f g bit} hf hg hc hd := by
    obtain ⟨slot, rfl⟩ := slot_of_field? hf
    obtain ⟨slot', rfl⟩ := slot_of_field? hg
    have he := (h.symbol_of_covers hf hc).symm.trans (h.symbol_of_covers hg hd)
    cases he
    rfl
  total {bit} hb := by
    rw [h.mask]
    obtain ⟨s, hs⟩ := Option.isSome_iff_exists.mp (symbolAt_isSome.mpr (h.length ▸ hb))
    cases s with
    | bit one => exact .inl (by rw [hs]; rfl)
    | operand slot =>
      have hc := (covers_iff_of_fieldOf (h.field slot) bit).mpr hs
      cases hf : t.field? slot.index with
      | none =>
        rw [hf] at hc
        cases hc
      | some f =>
        rw [hf] at hc
        exact .inr ⟨slot.index, f, hf, hc⟩

theorem partition_of_read {text : String} {t : Template} (h : read text = .ok t) :
    t.Partition := by
  obtain ⟨symbols, -, hd⟩ := describes_of_read h
  exact hd.partition

end Template

theorem Definition.template_of_compile {d : Definition} {i : Instruction}
    (h : d.compile = .ok i) :
    Template.read d.encoding = .ok i.template ∧ i.template.fieldCount = i.arity ∧
      i.toDefinition = d := by
  unfold compile at h
  obtain ⟨t, ht, h⟩ := except_bind_ok.mp h
  have hr : Template.read d.encoding = .ok t := by
    cases hr : Template.read d.encoding with
    | error e =>
      rw [hr] at ht
      cases ht
    | ok t' =>
      rw [hr] at ht
      cases ht
      rfl
  split at h
  · cases h
  · rename_i hcount
    cases h
    exact ⟨hr, Decidable.not_not.mp hcount, rfl⟩

theorem Definition.partition_of_compile {d : Definition} {i : Instruction}
    (h : d.compile = .ok i) : i.template.Partition :=
  Template.partition_of_read (template_of_compile h).1

end WordMachine
