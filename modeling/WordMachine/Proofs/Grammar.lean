import Mathlib.Data.List.Basic
import WordMachine.Proofs.Partition

namespace WordMachine.Template

section Places

variable {α : Type}

/-- Nothing else stands between two occurrences, so that an element which occurs does so at
consecutive positions. -/
def Unsplit (a : α) (l : List α) : Prop :=
  ∀ i j k : Nat, i < j → j < k → l[i]? = some a → l[k]? = some a → l[j]? = some a

def LastAt (a : α) (l : List α) (n : Nat) : Prop :=
  l[n]? = some a ∧ ∀ m : Nat, l[m]? = some a → m ≤ n

theorem exists_lastAt {a : α} {l : List α} (h : a ∈ l) : ∃ n, LastAt a l n := by
  induction l with
  | nil => cases h
  | cons b l ih =>
    by_cases hl : a ∈ l
    · obtain ⟨n, hn, hlast⟩ := ih hl
      refine ⟨n + 1, hn, fun m hm => ?_⟩
      cases m with
      | zero => exact Nat.zero_le _
      | succ m => exact Nat.succ_le_succ (hlast m hm)
    · obtain rfl : a = b := (List.mem_cons.mp h).resolve_right hl
      refine ⟨0, rfl, fun m hm => ?_⟩
      cases m with
      | zero => exact Nat.le_refl 0
      | succ m =>
        rw [List.getElem?_cons_succ] at hm
        exact absurd (List.mem_of_getElem? hm) hl

theorem lastAt_run {a : α} {left lower : List α} {width n : Nat} (hw : 0 < width)
    (hlower : a ∉ lower) (h : LastAt a (left ++ (List.replicate width a ++ lower)) n) :
    n + 1 = left.length + width := by
  have hend := h.2 (left.length + (width - 1)) (by
    rw [List.getElem?_append_right (Nat.le_add_right _ _), Nat.add_sub_cancel_left,
      List.getElem?_append_left (by rw [List.length_replicate]; omega), List.getElem?_replicate,
      if_pos (by omega)])
  by_contra hne
  have hn := h.1
  rw [List.getElem?_append_right (by omega), List.getElem?_append_right
    (by rw [List.length_replicate]; omega)] at hn
  exact hlower (List.mem_of_getElem? hn)

theorem not_unsplit {a b : α} {left run rest : List α} (hb : b ≠ a) (hrest : a ∈ rest) :
    ¬ Unsplit a (left ++ (a :: run ++ b :: rest)) := by
  intro hu
  obtain ⟨m, hm⟩ := List.mem_iff_getElem?.mp hrest
  -- The positions of the first occurrence, of the other element, and of an occurrence after it.
  have hmid := hu left.length (left.length + (run.length + 1)) (left.length + (run.length + 2 + m))
    (by omega) (by omega) ?_ ?_
  · rw [List.getElem?_append_right (by omega), Nat.add_sub_cancel_left,
      List.getElem?_append_right (by rw [List.length_cons]), List.length_cons, Nat.sub_self] at hmid
    exact hb (Option.some.inj hmid)
  · simp
  · rw [List.getElem?_append_right (by omega), Nat.add_sub_cancel_left,
      List.getElem?_append_right (by simp; omega), List.length_cons,
      show run.length + 2 + m - (run.length + 1) = m + 1 by omega, List.getElem?_cons_succ, hm]

end Places

def alphabet : List Char := ['0', '1', 'f', 's', 't']

/-- The character at position `n` is about bit `31 - n`. The letter of an operand that occurs makes
a field with one bit for each occurrence, the last one being the lowest bit. -/
structure Spells (t : Template) (chars : List Char) : Prop where
  mask {n : Nat} : n < 32 →
    (t.mask.getLsbD (31 - n) = true ↔ chars[n]? = some '0' ∨ chars[n]? = some '1')
  value {n : Nat} : n < 32 → (t.value.getLsbD (31 - n) = true ↔ chars[n]? = some '1')
  absent {slot : Slot} : slot.letter ∉ chars → t.field? slot.index = none
  present {slot : Slot} {n : Nat} : LastAt slot.letter chars n →
    t.field? slot.index = some ⟨31 - n, chars.count slot.letter⟩

/-- The answer that characters deserve. A wrong length is found before a foreign character, of
which the first one counts, and both before a split letter, of which the one of the first operand
counts. -/
inductive Verdict (chars : List Char) : Except TemplateError Template → Prop
  | length (wrong : chars.length ≠ 32) : Verdict chars (.error (.length chars.length))
  | character {c : Char} (length : chars.length = 32)
      (first : chars.find? (· ∉ alphabet) = some c) : Verdict chars (.error (.character c))
  | splitField {slot : Slot} (length : chars.length = 32) (known : ∀ c ∈ chars, c ∈ alphabet)
      (split : ¬ Unsplit slot.letter chars)
      (first : ∀ earlier : Slot, earlier.index < slot.index → Unsplit earlier.letter chars) :
      Verdict chars (.error (.splitField slot))
  | accepted {t : Template} (length : chars.length = 32) (known : ∀ c ∈ chars, c ∈ alphabet)
      (unsplit : ∀ slot : Slot, Unsplit slot.letter chars) (spells : t.Spells chars) :
      Verdict chars (.ok t)

theorem ext_slots {a b : Template} (hm : a.mask = b.mask) (hv : a.value = b.value)
    (hf : ∀ slot : Slot, a.field? slot.index = b.field? slot.index) : a = b := by
  obtain ⟨ma, va, fa⟩ := a
  obtain ⟨mb, vb, fb⟩ := b
  obtain rfl : ma = mb := hm
  obtain rfl : va = vb := hv
  have hfields : fa = fb := by
    apply Vector.ext
    intro k hk
    obtain ⟨slot, rfl⟩ := Slot.exists_index hk
    simpa [field?, hk] using hf slot
  rw [hfields]

theorem exists_position {bit : Nat} (h : bit < 32) : ∃ n < 32, 31 - n = bit :=
  ⟨31 - bit, by omega, by omega⟩

theorem Spells.unique {a b : Template} {chars : List Char} (ha : a.Spells chars)
    (hb : b.Spells chars) : a = b := by
  apply ext_slots
  · apply BitVec.eq_of_getLsbD_eq
    intro bit hbit
    obtain ⟨n, hn, rfl⟩ := exists_position hbit
    rw [Bool.eq_iff_iff, ha.mask hn, hb.mask hn]
  · apply BitVec.eq_of_getLsbD_eq
    intro bit hbit
    obtain ⟨n, hn, rfl⟩ := exists_position hbit
    rw [Bool.eq_iff_iff, ha.value hn, hb.value hn]
  · intro slot
    by_cases hs : slot.letter ∈ chars
    · obtain ⟨n, hn⟩ := exists_lastAt hs
      rw [ha.present hn, hb.present hn]
    · rw [ha.absent hs, hb.absent hs]

theorem Verdict.unique {chars : List Char} {a b : Except TemplateError Template}
    (ha : Verdict chars a) (hb : Verdict chars b) : a = b := by
  have hfirst {c : Char} (known : ∀ c ∈ chars, c ∈ alphabet)
      (first : chars.find? (· ∉ alphabet) = some c) : False := by
    have hforeign := List.find?_some first
    exact absurd (known c (List.mem_of_find?_eq_some first)) (by simpa using hforeign)
  -- The conditions of different kinds of answer exclude each other.
  cases ha with
  | length wrong =>
    cases hb with
    | length => rfl
    | character length | splitField length | accepted length => exact absurd length wrong
  | character length first =>
    cases hb with
    | length wrong => exact absurd length wrong
    | character _ first' => rw [Option.some.inj (first.symm.trans first')]
    | splitField _ known | accepted _ known => exact (hfirst known first).elim
  | @splitField slot length known split first =>
    cases hb with
    | length wrong => exact absurd length wrong
    | character _ foreign => exact (hfirst known foreign).elim
    | @splitField slot' _ _ split' first' =>
      rcases Nat.lt_trichotomy slot.index slot'.index with hlt | heq | hgt
      · exact absurd (first' slot hlt) split
      · rw [Slot.index_inj.mp heq]
      · exact absurd (first slot' hgt) split'
    | accepted _ _ unsplit => exact absurd (unsplit _) split
  | accepted length known unsplit spells =>
    cases hb with
    | length wrong => exact absurd length wrong
    | character _ foreign => exact (hfirst known foreign).elim
    | splitField _ _ split => exact absurd (unsplit _) split
    | accepted _ _ _ spells' => rw [spells.unique spells']

theorem ofChar?_eq_none_iff {c : Char} : Symbol.ofChar? c = none ↔ c ∉ alphabet := by
  unfold Symbol.ofChar?
  split <;> simp_all [alphabet]

theorem toChar_mem_alphabet (s : Symbol) : s.toChar ∈ alphabet := by
  rcases s with (_ | _) | (_ | _ | _) <;> decide

theorem first_of_readSymbols {chars : List Char} {e : TemplateError}
    (h : readSymbols chars = .error e) :
    ∃ c, e = .character c ∧ chars.find? (· ∉ alphabet) = some c := by
  induction chars with
  | nil => cases h
  | cons c cs ih =>
    unfold readSymbols at h
    cases hc : Symbol.ofChar? c with
    | none =>
      rw [hc] at h
      cases h
      have hforeign := ofChar?_eq_none_iff.mp hc
      exact ⟨c, rfl, List.find?_cons_of_pos (by simpa using hforeign)⟩
    | some s =>
      have hknown : c ∈ alphabet := Symbol.toChar_of_ofChar? hc ▸ toChar_mem_alphabet s
      cases hr : readSymbols cs with
      | ok rest =>
        rw [hc, hr] at h
        cases h
      | error e' =>
        rw [hc, hr] at h
        cases h
        obtain ⟨c', he, hfirst⟩ := ih hr
        exact ⟨c', he, by rwa [List.find?_cons_of_neg (by simpa using hknown)]⟩

theorem symbolAt_mirror {symbols : List Symbol} {n : Nat} (hn : n < symbols.length) :
    symbolAt symbols (symbols.length - 1 - n) = symbols[n]? := by
  rw [symbolAt, List.getElem?_reverse (by omega)]
  congr 1
  omega

theorem unsplit_of_fieldOf {slot : Slot} {symbols : List Symbol} {field : Option Field}
    (h : fieldOf slot symbols = .ok field) : Unsplit (.operand slot) symbols := by
  intro i j k hij hjk hi hk
  have hlt : k < symbols.length := (List.getElem?_eq_some_iff.mp hk).1
  -- The bits of a field are an interval, and positions are bits counted from the other end.
  rw [← symbolAt_mirror (by omega), ← covers_iff_of_fieldOf h] at hi hk ⊢
  cases field with
  | none => cases hk
  | some f =>
    simp only [Option.any_some, Field.covers, Bool.and_eq_true, decide_eq_true_eq] at hi hk ⊢
    omega

/-- If the operand is found again after its run, something stands in between. -/
theorem split_of_fieldOf {slot : Slot} {symbols : List Symbol} {e : TemplateError}
    (h : fieldOf slot symbols = .error e) :
    e = .splitField slot ∧ ¬ Unsplit (.operand slot) symbols := by
  obtain ⟨left, width, lower, hsymbols, -, hstop, hempty, heq⟩ := fieldOf_eq slot symbols
  rw [heq] at h
  split at h
  · rename_i hlower
    cases h
    refine ⟨rfl, ?_⟩
    cases lower with
    | nil => cases hlower
    | cons between rest =>
      have hbetween : between ≠ .operand slot := fun he => hstop (by rw [he]; rfl)
      have hrest := (List.mem_cons.mp hlower).resolve_left hbetween.symm
      cases width with
      | zero => cases hempty rfl
      | succ width =>
        rw [hsymbols, List.replicate_succ]
        exact not_unsplit hbetween hrest
  · split at h <;> cases h

theorem first_of_ofSymbols {symbols : List Symbol} {e : TemplateError}
    (h : ofSymbols symbols = .error e) :
    ∃ slot : Slot, e = .splitField slot ∧ ¬ Unsplit (.operand slot) symbols ∧
      ∀ earlier : Slot, earlier.index < slot.index → Unsplit (.operand earlier) symbols := by
  rcases except_bind_error.mp h with h1 | ⟨_, h1, h⟩
  · obtain ⟨rfl, hsplit⟩ := split_of_fieldOf h1
    exact ⟨.first, rfl, hsplit, fun earlier hlt => absurd hlt (Nat.not_lt_zero _)⟩
  rcases except_bind_error.mp h with h2 | ⟨_, h2, h⟩
  · obtain ⟨rfl, hsplit⟩ := split_of_fieldOf h2
    refine ⟨.second, rfl, hsplit, fun earlier hlt => ?_⟩
    cases earlier with
    | first => exact unsplit_of_fieldOf h1
    | second | third => exact absurd hlt (by decide)
  rcases except_bind_error.mp h with h3 | ⟨_, h3, h⟩
  · obtain ⟨rfl, hsplit⟩ := split_of_fieldOf h3
    refine ⟨.third, rfl, hsplit, fun earlier hlt => ?_⟩
    cases earlier with
    | first => exact unsplit_of_fieldOf h1
    | second => exact unsplit_of_fieldOf h2
    | third => exact absurd hlt (by decide)
  · cases h

section Letters

variable {symbols : List Symbol}

theorem getElem?_map_toChar_iff {n : Nat} {s : Symbol} :
    (symbols.map Symbol.toChar)[n]? = some s.toChar ↔ symbols[n]? = some s := by
  simp only [List.getElem?_map, Option.map_eq_some_iff, Symbol.toChar_inj, exists_eq_right]

theorem unsplit_map_toChar_iff {s : Symbol} :
    Unsplit s.toChar (symbols.map Symbol.toChar) ↔ Unsplit s symbols := by
  simp only [Unsplit, getElem?_map_toChar_iff]

theorem lastAt_map_toChar_iff {n : Nat} {s : Symbol} :
    LastAt s.toChar (symbols.map Symbol.toChar) n ↔ LastAt s symbols n := by
  simp only [LastAt, getElem?_map_toChar_iff]

theorem count_map_toChar (s : Symbol) :
    (symbols.map Symbol.toChar).count s.toChar = symbols.count s := by
  rw [List.count_eq_countP, List.count_eq_countP, List.countP_map]
  refine List.countP_congr fun s' _ => ?_
  simp [Symbol.toChar_inj]

theorem isBit_iff {n : Nat} : (symbols[n]?).any Symbol.isBit = true ↔
    (symbols.map Symbol.toChar)[n]? = some '0' ∨ (symbols.map Symbol.toChar)[n]? = some '1' := by
  rw [show '0' = (Symbol.bit false).toChar from rfl, show '1' = (Symbol.bit true).toChar from rfl,
    getElem?_map_toChar_iff, getElem?_map_toChar_iff]
  rcases symbols[n]? with _ | ((_ | _) | slot) <;> simp [Symbol.isBit]

theorem isOne_iff {n : Nat} : (symbols[n]?).any Symbol.isOne = true ↔
    (symbols.map Symbol.toChar)[n]? = some '1' := by
  rw [show '1' = (Symbol.bit true).toChar from rfl, getElem?_map_toChar_iff]
  rcases symbols[n]? with _ | ((_ | _) | slot) <;> simp [Symbol.isOne]

end Letters

theorem Describes.spells {t : Template} {symbols : List Symbol} (h : t.Describes symbols) :
    t.Spells (symbols.map Symbol.toChar) where
  mask {n} hn := by
    rw [h.mask, ← isBit_iff, ← symbolAt_mirror (by rwa [h.length]), h.length]
  value {n} hn := by
    rw [h.value, ← isOne_iff, ← symbolAt_mirror (by rwa [h.length]), h.length]
  absent {slot} hs := by
    rw [← Symbol.toChar_operand, mem_map_toChar_iff] at hs
    rcases run_of_fieldOf (h.field slot) with ⟨hnone, -⟩ | ⟨left, width, lower, he, hw, -, -, -⟩
    · exact hnone
    · refine absurd ?_ hs
      rw [he]
      simp [Nat.ne_of_gt hw]
  present {slot n} hlast := by
    rw [← Symbol.toChar_operand, lastAt_map_toChar_iff] at hlast
    rw [← Symbol.toChar_operand, count_map_toChar]
    rcases run_of_fieldOf (h.field slot) with
      ⟨-, hnot⟩ | ⟨left, width, lower, rfl, hw, hleft, hlower, hf⟩
    · exact absurd (List.mem_of_getElem? hlast.1) hnot
    · have hn := lastAt_run hw hlower hlast
      have hl := h.length
      simp only [List.length_append, List.length_replicate] at hl
      rw [hf, List.count_append, List.count_append, List.count_replicate_self,
        List.count_eq_zero.mpr hleft, List.count_eq_zero.mpr hlower,
        show lower.length = 31 - n by omega, Nat.zero_add, Nat.add_zero]

theorem spells_of_read {text : String} {t : Template} (h : read text = .ok t) :
    (significant text).length = 32 ∧ t.Spells (significant text) := by
  obtain ⟨symbols, hr, hd⟩ := describes_of_read h
  rw [← map_toChar_of_readSymbols hr, List.length_map]
  exact ⟨hd.length, hd.spells⟩

theorem verdict_read (text : String) : Verdict (significant text) (read text) := by
  unfold read
  dsimp only
  split
  · rename_i hl
    exact .length hl
  · rename_i hl
    have hlength : (significant text).length = 32 := Decidable.not_not.mp hl
    cases hr : readSymbols (significant text) with
    | error e =>
      obtain ⟨c, rfl, hfirst⟩ := first_of_readSymbols hr
      exact .character hlength hfirst
    | ok symbols =>
      have hchars := map_toChar_of_readSymbols hr
      have hknown : ∀ c ∈ significant text, c ∈ alphabet := by
        rw [← hchars]
        intro c hc
        obtain ⟨s, -, rfl⟩ := List.mem_map.mp hc
        exact toChar_mem_alphabet s
      change Verdict (significant text) (ofSymbols symbols)
      cases ho : ofSymbols symbols with
      | error e =>
        obtain ⟨slot, rfl, hsplit, hfirst⟩ := first_of_ofSymbols ho
        simp only [← unsplit_map_toChar_iff, Symbol.toChar_operand, hchars] at hsplit hfirst
        exact .splitField hlength hknown hsplit hfirst
      | ok t =>
        have hsymbols : symbols.length = 32 := by
          rw [← hlength, ← hchars, List.length_map]
        have hd := describes_of_ofSymbols hsymbols ho
        refine .accepted hlength hknown (fun slot => ?_) (hchars ▸ hd.spells)
        rw [← hchars, ← Symbol.toChar_operand, unsplit_map_toChar_iff]
        exact unsplit_of_fieldOf (hd.field slot)

/-- A text is a template if it has 32 characters that are not blank, all from the alphabet, and no
letter is split. The first of these demands that is not met is the answer, with the number of
characters, the first foreign character or the first split letter. -/
theorem read_eq_iff (text : String) (answer : Except TemplateError Template) :
    read text = answer ↔ Verdict (text.toList.filter (!Text.isBlank ·)) answer := by
  constructor
  · rintro rfl
    exact verdict_read text
  · intro h
    exact (verdict_read text).unique h

/-- A split letter does not matter if a foreign character comes after it. -/
example : read "s0s0 0000 0000 0000 0000 0000 0000 000q" = .error (.character 'q') := by
  decide +kernel

end WordMachine.Template
