import WordMachine.Proofs.Grammar

namespace WordMachine.Template

variable {a b : Template}

theorem overlaps_iff_bits : a.overlaps b = true ↔ ∀ bit, a.mask.getLsbD bit = true →
    b.mask.getLsbD bit = true → a.value.getLsbD bit = b.value.getLsbD bit := by
  rw [overlaps, beq_iff_eq]
  constructor
  · intro h bit ha hb
    have hbit := congrArg (BitVec.getLsbD · bit) h
    simpa [ha, hb] using hbit
  · intro h
    apply BitVec.eq_of_getLsbD_eq
    intro bit _
    cases ha : a.mask.getLsbD bit with
    | false => simp [ha]
    | true =>
      cases hb : b.mask.getLsbD bit with
      | false => simp [hb]
      | true => simp [h bit ha hb]

theorem getLsbD_of_accepts {word : Word} (h : a.accepts word = true) {bit : Nat}
    (hm : a.mask.getLsbD bit = true) : word.getLsbD bit = a.value.getLsbD bit := by
  rw [accepts, beq_iff_eq] at h
  rw [← h, BitVec.getLsbD_and, hm, Bool.and_true]

theorem Partition.accepts_of_bits (ha : a.Partition) {word : Word}
    (h : ∀ bit, a.mask.getLsbD bit = true → word.getLsbD bit = a.value.getLsbD bit) :
    a.accepts word = true := by
  rw [accepts, beq_iff_eq]
  apply BitVec.eq_of_getLsbD_eq
  intro bit _
  rw [BitVec.getLsbD_and]
  cases hm : a.mask.getLsbD bit with
  | true => rw [h bit hm, Bool.and_true]
  | false =>
    have hv : a.value.getLsbD bit = false := by
      by_contra hv
      rw [ha.value_fixed (by simpa using hv)] at hm
      cases hm
    rw [hv, Bool.and_false]

theorem overlaps_comm (a b : Template) : a.overlaps b = b.overlaps a := by
  rw [Bool.eq_iff_iff, overlaps_iff_bits, overlaps_iff_bits]
  exact ⟨fun h bit hb ha => (h bit ha hb).symm, fun h bit ha hb => (h bit hb ha).symm⟩

theorem overlaps_self (t : Template) : t.overlaps t = true :=
  overlaps_iff_bits.mpr fun _ _ _ => rfl

theorem overlaps_of_accepts {word : Word} (ha : a.accepts word = true)
    (hb : b.accepts word = true) : a.overlaps b = true :=
  overlaps_iff_bits.mpr fun _ hma hmb =>
    (getLsbD_of_accepts ha hma).symm.trans (getLsbD_of_accepts hb hmb)

/-- The word with all the ones that either of two overlapping templates asks for has both of them,
as no one of the first is a fixed zero of the second. -/
theorem Partition.accepts_or (ha : a.Partition) (hb : b.Partition) (h : a.overlaps b = true) :
    a.accepts (a.value ||| b.value) = true := by
  refine ha.accepts_of_bits fun bit hm => ?_
  rw [BitVec.getLsbD_or]
  cases hv : b.value.getLsbD bit with
  | false => rw [Bool.or_false]
  | true => rw [overlaps_iff_bits.mp h bit hm (hb.value_fixed hv), hv, Bool.or_true]

theorem Partition.overlaps_iff (ha : a.Partition) (hb : b.Partition) :
    a.overlaps b = true ↔ ∃ word, a.accepts word = true ∧ b.accepts word = true := by
  constructor
  · intro h
    have hword := ha.accepts_or hb h
    rw [overlaps_comm] at h
    refine ⟨a.value ||| b.value, hword, ?_⟩
    rw [BitVec.or_comm]
    exact hb.accepts_or ha h
  · rintro ⟨word, hwa, hwb⟩
    exact overlaps_of_accepts hwa hwb

def ClashAt (chars chars' : List Char) (n : Nat) : Prop :=
  (chars[n]? = some '0' ∧ chars'[n]? = some '1') ∨ (chars[n]? = some '1' ∧ chars'[n]? = some '0')

variable {chars chars' : List Char}

theorem Spells.not_overlaps (ha : a.Spells chars) (hb : b.Spells chars') {n : Nat} (hn : n < 32)
    (hzero : chars[n]? = some '0') (hone : chars'[n]? = some '1') : ¬ a.overlaps b = true := by
  intro h
  have hvalue := overlaps_iff_bits.mp h (31 - n) ((ha.mask hn).mpr (.inl hzero))
    ((hb.mask hn).mpr (.inr hone))
  rw [(hb.value hn).mpr hone, ha.value hn, hzero] at hvalue
  cases hvalue

theorem Spells.overlaps_iff (hl : chars.length = 32) (ha : a.Spells chars) (hb : b.Spells chars') :
    a.overlaps b = true ↔ ¬ ∃ n, ClashAt chars chars' n := by
  constructor
  · rintro h ⟨n, ⟨hzero, hone⟩ | ⟨hone, hzero⟩⟩
    · have hn : n < 32 := hl ▸ (List.getElem?_eq_some_iff.mp hzero).1
      exact ha.not_overlaps hb hn hzero hone h
    · have hn : n < 32 := hl ▸ (List.getElem?_eq_some_iff.mp hone).1
      exact hb.not_overlaps ha hn hzero hone (b.overlaps_comm a ▸ h)
  · intro h
    refine overlaps_iff_bits.mpr fun bit hma hmb => ?_
    obtain ⟨n, hn, rfl⟩ := exists_position (BitVec.lt_of_getLsbD hma)
    have hclash : ¬ ClashAt chars chars' n := fun hc => h ⟨n, hc⟩
    rw [ha.mask hn] at hma
    rw [hb.mask hn] at hmb
    rw [Bool.eq_iff_iff, ha.value hn, hb.value hn]
    rcases hma with hma | hma <;> rcases hmb with hmb | hmb <;> simp_all [ClashAt]

/-- Two templates that were read overlap exactly if they have a word in common, and exactly if their
texts clash at no position. Which of them comes first does not matter. A template overlaps itself,
and one without literals overlaps every other. -/
theorem overlaps_exact {text text' : String} (ha : read text = .ok a) (hb : read text' = .ok b) :
    (a.overlaps b = true ↔ ∃ word, a.accepts word = true ∧ b.accepts word = true) ∧
    (a.overlaps b = true ↔ ¬ ∃ n, ClashAt (significant text) (significant text') n) ∧
    a.overlaps b = b.overlaps a ∧ a.overlaps a = true ∧
    ('0' ∉ significant text → '1' ∉ significant text → a.overlaps b = true) := by
  obtain ⟨symbols, -, hda⟩ := describes_of_read ha
  obtain ⟨symbols', -, hdb⟩ := describes_of_read hb
  obtain ⟨hl, hsa⟩ := spells_of_read ha
  obtain ⟨-, hsb⟩ := spells_of_read hb
  have htexts := hsa.overlaps_iff hl hsb
  refine ⟨hda.partition.overlaps_iff hdb.partition, htexts, a.overlaps_comm b, a.overlaps_self,
    fun hzero hone => htexts.mpr ?_⟩
  rintro ⟨n, ⟨h, -⟩ | ⟨h, -⟩⟩
  · exact hzero (List.mem_of_getElem? h)
  · exact hone (List.mem_of_getElem? h)

/-- Each of the two asks for ones where the other has a field. -/
theorem overlaps_exact_crossed :
    ∃ a b, read "01 ffffffffffffff 0000000000000001" = .ok a ∧
      read "0 sssssss 11111111 tttttttttttttttt" = .ok b ∧
      (∃ word, a.accepts word = true ∧ b.accepts word = true) ∧
      ¬ ∃ n, ClashAt (significant "01 ffffffffffffff 0000000000000001")
        (significant "0 sssssss 11111111 tttttttttttttttt") n := by
  have ha : read "01 ffffffffffffff 0000000000000001" =
      .ok ⟨0xc000ffff, 0x40000001, #v[some ⟨16, 14⟩, none, none]⟩ := by
    decide +kernel
  have hb : read "0 sssssss 11111111 tttttttttttttttt" =
      .ok ⟨0x80ff0000, 0x00ff0000, #v[none, some ⟨24, 7⟩, some ⟨0, 16⟩]⟩ := by
    decide +kernel
  obtain ⟨hword, htexts, -⟩ := overlaps_exact ha hb
  exact ⟨_, _, ha, hb, hword.mp (by decide), htexts.mp (by decide)⟩

end WordMachine.Template
