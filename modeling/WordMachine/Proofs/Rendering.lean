import Mathlib.Logic.ExistsUnique
import WordMachine.Proofs.Grammar

namespace WordMachine

theorem mapM_eq_some {α β : Type} {f : α → Option β} {l : List α} {l' : List β}
    (h : l.map f = l'.map some) : l.mapM f = some l' := by
  induction l generalizing l' with
  | nil =>
    cases l' with
    | nil => rfl
    | cons => cases h
  | cons a l ih =>
    cases l' with
    | nil => cases h
    | cons b l' =>
      obtain ⟨hb, htail⟩ := List.cons.inj h
      rw [List.mapM_cons, hb, ih htail]
      rfl

namespace Template

variable {t : Template} {symbols : List Symbol}

theorem Describes.covers_iff (h : t.Describes symbols) {slot : Slot} {bit : Nat}
    (hs : symbolAt symbols bit = some (.operand slot)) (other : Slot) :
    (t.field? other.index).any (·.covers bit) = true ↔ other = slot := by
  rw [covers_iff_of_fieldOf (h.field other), hs, Option.some.injEq, Symbol.operand.injEq, eq_comm]

theorem Describes.symbolAt? (h : t.Describes symbols) {bit : Nat} (hb : bit < 32) :
    t.symbolAt? bit = symbolAt symbols bit := by
  obtain ⟨s, hs⟩ := Option.isSome_iff_exists.mp (symbolAt_isSome.mpr (h.length ▸ hb))
  rw [Template.symbolAt?, h.mask, h.value, hs]
  cases s with
  | bit one => rfl
  | operand slot =>
    have hfind : Slot.all.find? (fun slot => (t.field? slot.index).any (·.covers bit)) =
        some slot := by
      have honly : (fun other : Slot => (t.field? other.index).any (·.covers bit)) =
          (· == slot) := by
        funext other
        rw [Bool.eq_iff_iff, h.covers_iff hs, beq_iff_eq]
      rw [honly]
      cases slot <;> rfl
    rw [hfind]
    rfl

theorem Describes.symbols? (h : t.Describes symbols) : t.symbols? = some symbols := by
  apply mapM_eq_some
  apply List.ext_getElem
  · simp [h.length]
  · intro n hn _
    have hlt : n < symbols.length := by simpa [h.length] using hn
    have hmirror := symbolAt_mirror hlt
    rw [h.length] at hmirror
    simp only [List.getElem_map, List.getElem_reverse, List.length_range, List.getElem_range]
    rw [h.symbolAt? (by omega), hmirror, List.getElem?_eq_getElem hlt]

theorem render?_of_read {text : String} (h : read text = .ok t) :
    t.render? = some (significant text) := by
  obtain ⟨symbols, hr, hd⟩ := describes_of_read h
  rw [render?, hd.symbols?, Option.map_some, map_toChar_of_readSymbols hr]

theorem read_congr {text text' : String} (h : significant text = significant text') :
    read text = read text' := by
  rw [read, read, h]

theorem significant_ofList (text : String) :
    significant (String.ofList (significant text)) = significant text := by
  simp [significant]

/-- A template that was read has one field for each bit that is not fixed. Written from its bits and
fields it is the text without the blanks, and that reads as the same template. So two texts that can
be read have one template only if they differ in nothing but blanks. -/
theorem read_loses_blanks_only {text : String} (h : read text = .ok t) :
    (∀ bit < 32, t.mask.getLsbD bit = false →
      ∃! slot : Slot, (t.field? slot.index).any (·.covers bit) = true) ∧
    (∃ chars, t.render? = some chars ∧ chars = text.toList.filter (!Text.isBlank ·) ∧
      read (String.ofList chars) = .ok t) ∧
    ∀ text' t', read text' = .ok t' →
      (t = t' ↔ text.toList.filter (!Text.isBlank ·) = text'.toList.filter (!Text.isBlank ·)) := by
  obtain ⟨symbols, hr, hd⟩ := describes_of_read h
  refine ⟨fun bit hb hm => ?_, ⟨significant text, render?_of_read h, rfl, ?_⟩,
    fun text' t' h' => ⟨?_, ?_⟩⟩
  · obtain ⟨k, f, hf, hc⟩ := (hd.partition.total hb).resolve_left (by simp [hm])
    obtain ⟨slot, rfl⟩ := slot_of_field? hf
    refine ⟨slot, by simp [hf, hc], fun other ho => ?_⟩
    exact (hd.covers_iff (hd.symbol_of_covers hf hc) other).mp ho
  · rw [read_congr (significant_ofList text), h]
  · rintro rfl
    exact Option.some.inj ((render?_of_read h).symm.trans (render?_of_read h'))
  · intro hchars
    have hsame := (read_congr hchars).symm.trans h
    exact Except.ok.inj (hsame.symm.trans h')

/-- Tabulators and wide blanks between the fields. -/
theorem read_loses_blanks_only_wide :
    ∃ t, read "\t000001\u3000sssss fffff\u2003tttttttttttttttt" = .ok t ∧
      t.render? = some "000001sssssffffftttttttttttttttt".toList ∧
      ∀ text' t', read text' = .ok t' →
        (t = t' ↔ "000001sssssffffftttttttttttttttt".toList = significant text') := by
  have h : read "\t000001\u3000sssss fffff\u2003tttttttttttttttt" =
      .ok ⟨0xfc000000, 0x04000000, #v[some ⟨16, 5⟩, some ⟨21, 5⟩, some ⟨0, 16⟩]⟩ := by cbv
  have hchars : "\t000001\u3000sssss fffff\u2003tttttttttttttttt".toList.filter (!Text.isBlank ·) =
      "000001sssssffffftttttttttttttttt".toList := by decide +kernel
  obtain ⟨-, ⟨chars, hc, hsame, -⟩, hinj⟩ := read_loses_blanks_only h
  rw [hsame, hchars] at hc
  rw [hchars] at hinj
  exact ⟨_, h, hc, hinj⟩

end Template

end WordMachine
