import Mathlib.Logic.Function.Basic
import WordMachine.Proofs.Grammar
import WordMachine.Proofs.Packing

namespace WordMachine

namespace Template

section Occurrences

variable {α : Type} {a b : α} {l : List α} {n : Nat}

theorem getElem?_snoc_eq_iff (h : b ≠ a) : (l ++ [b])[n]? = some a ↔ l[n]? = some a := by
  rw [List.getElem?_append]
  split
  · rfl
  · rename_i hn
    rw [List.getElem?_singleton, List.getElem?_eq_none (Nat.le_of_not_lt hn)]
    split <;> simp [h]

theorem lastAt_snoc_of_ne (h : b ≠ a) : LastAt a (l ++ [b]) n ↔ LastAt a l n := by
  simp only [LastAt, getElem?_snoc_eq_iff h]

theorem lastAt_snoc_self (h : LastAt a (l ++ [a]) n) : n = l.length := by
  have hlt := (List.getElem?_eq_some_iff.mp h.1).1
  have hle := h.2 l.length List.getElem?_concat_length
  rw [List.length_append, List.length_singleton] at hlt
  omega

variable [DecidableEq α]

theorem idxOf_le (h : l[n]? = some a) : l.idxOf a ≤ n := by
  have hmem : a ∈ l.take (n + 1) :=
    List.mem_of_getElem? (by rw [List.getElem?_take_of_succ]; exact h)
  exact Nat.le_of_lt_succ ((List.mem_take_iff_idxOf_lt (List.mem_of_getElem? h)).mp hmem)

theorem exists_between (h : LastAt a l n) :
    ∃ left middle right, l = left ++ (middle ++ right) ∧ a ∉ left ∧ a ∉ right ∧
      left.length = l.idxOf a ∧ l.idxOf a + middle.length = n + 1 := by
  have hmem : a ∈ l := List.mem_of_getElem? h.1
  have hle : l.idxOf a ≤ n := idxOf_le h.1
  have hn : n < l.length := (List.getElem?_eq_some_iff.mp h.1).1
  refine ⟨l.take (l.idxOf a), (l.drop (l.idxOf a)).take (n + 1 - l.idxOf a),
    (l.drop (l.idxOf a)).drop (n + 1 - l.idxOf a), ?_, ?_, ?_, ?_, ?_⟩
  · rw [List.take_append_drop, List.take_append_drop]
  · exact fun hm => Nat.lt_irrefl _ ((List.mem_take_iff_idxOf_lt hmem).mp hm)
  · intro hm
    rw [List.drop_drop] at hm
    obtain ⟨k, hk⟩ := List.mem_iff_getElem?.mp hm
    rw [List.getElem?_drop] at hk
    have hlast := h.2 _ hk
    omega
  · rw [List.length_take, Nat.min_eq_left (by omega)]
  · rw [List.length_take, List.length_drop, Nat.min_eq_left (by omega)]
    omega

theorem unsplit_iff_count (h : LastAt a l n) : Unsplit a l ↔ l.count a = n - l.idxOf a + 1 := by
  have hfirst : l[l.idxOf a]? = some a := List.getElem?_idxOf (List.mem_of_getElem? h.1)
  have hle : l.idxOf a ≤ n := idxOf_le h.1
  obtain ⟨left, middle, right, hl, hleft, hright, hstart, hlength⟩ := exists_between h
  have hget {k : Nat} (hk : k < middle.length) : l[l.idxOf a + k]? = middle[k]? := by
    conv_lhs => rw [← hstart, hl]
    rw [List.getElem?_append_right (Nat.le_add_right _ _), Nat.add_sub_cancel_left,
      List.getElem?_append_left hk]
  have hcount : l.count a = middle.count a := by
    conv_lhs => rw [hl]
    rw [List.count_append, List.count_append, List.count_eq_zero.mpr hleft,
      List.count_eq_zero.mpr hright, Nat.zero_add, Nat.add_zero]
  rw [hcount, show n - l.idxOf a + 1 = middle.length by omega, List.count_eq_length]
  constructor
  · intro hu b hb
    obtain ⟨k, hk⟩ := List.mem_iff_getElem?.mp hb
    have hlt : k < middle.length := (List.getElem?_eq_some_iff.mp hk).1
    -- A position between the first and the last one is where splitting matters.
    have ha : l[l.idxOf a + k]? = some a := by
      rcases Nat.eq_zero_or_pos k with rfl | hpos
      · exact hfirst
      · rcases Nat.lt_or_ge (l.idxOf a + k) n with hinner | hend
        · exact hu _ _ _ (by omega) hinner hfirst h.1
        · rw [show l.idxOf a + k = n by omega]
          exact h.1
    rw [hget hlt, hk] at ha
    exact (Option.some.inj ha).symm
  · intro hall i j k hij hjk hi hk
    have hlow := idxOf_le hi
    have hhigh := h.2 k hk
    have hlt : j - l.idxOf a < middle.length := by omega
    have hj := hget hlt
    rw [Nat.add_sub_cancel' (by omega), List.getElem?_eq_getElem hlt] at hj
    rw [hj, ← hall _ (List.getElem_mem hlt)]

end Occurrences

/-- What a pass remembers of the symbols of an operand: the bits of the first and of the last of
them, and how many there are. -/
structure Span where
  highest : Byte
  lowest : Byte
  count : Byte

structure Scan where
  mask : Word := 0
  value : Word := 0
  spans : Slot → Option Span := fun _ => none

/-- A pass may find something wrong with the text, and a fault ends it without an answer. -/
abbrev Scanning (α : Type) := ExceptT TemplateError Strict α

namespace Scanning

variable {α β : Type} {a : α}

theorem lift_bind {x : Strict α} (h : x = .ok a) (k : α → Scanning β) :
    (liftM x : Scanning α) >>= k = k a := by
  rw [h]
  rfl

theorem bind_ok {x : Scanning α} (h : x.run = .ok (.ok a)) (k : α → Scanning β) :
    (x >>= k).run = (k a).run := by
  rw [ExceptT.run_bind, h]
  rfl

theorem bind_error {x : Scanning α} {e : TemplateError} (h : x.run = .ok (.error e))
    (k : α → Scanning β) : (x >>= k).run = .ok (.error e) := by
  rw [ExceptT.run_bind, h]
  rfl

theorem bind_run {x : Scanning α} {answer : Except TemplateError α} (h : x.run = .ok answer)
    {k : α → Scanning β} {next : α → Except TemplateError β}
    (hk : ∀ a, (k a).run = .ok (next a)) : (x >>= k).run = .ok (answer >>= next) := by
  cases answer with
  | error e => exact bind_error h k
  | ok a => exact (bind_ok h k).trans (hk a)

end Scanning

namespace Span

/-- The span after one more symbol, which is below the others. -/
def extend (bit : Byte) : Option Span → Strict Span
  | none => .ok ⟨bit, bit, 1⟩
  | some span => do
    let count ← Strict.add span.count 1
    return { span with lowest := bit, count }

/-- The field of a span that has no gaps. -/
def field? (slot : Slot) : Option Span → Scanning (Option Field)
  | none => return none
  | some span => do
    let reach ← Strict.add (← Strict.sub span.highest span.lowest) 1
    if reach ≠ span.count then
      throw (.splitField slot)
    return some ⟨span.lowest.toNat, span.count.toNat⟩

end Span

namespace Scan

def fix (s : Scan) (place : Word) (one : Bool) : Scan :=
  { s with
    mask := s.mask ||| place
    value := if one then s.value ||| place else s.value }

def setSpan (s : Scan) (slot : Slot) (span : Span) : Scan :=
  { s with spans := Function.update s.spans slot (some span) }

/-- The bits count down while the positions count up. -/
def step (s : Scan) (position : Nat) (c : Char) : Scanning Scan := do
  let bit ← Strict.sub 31 (BitVec.ofNat 8 position)
  match Symbol.ofChar? c with
  | none => throw (.character c)
  | some (.bit one) =>
    let place ← Strict.shiftLeft (1 : Word) bit.toNat
    return s.fix place one
  | some (.operand slot) =>
    let span ← Span.extend bit (s.spans slot)
    return s.setSpan slot span

def steps (s : Scan) (position : Nat) : List Char → Scanning Scan
  | [] => return s
  | c :: cs => do
    let next ← s.step position c
    next.steps (position + 1) cs

def template (s : Scan) : Scanning Template := do
  let first ← Span.field? .first (s.spans .first)
  let second ← Span.field? .second (s.spans .second)
  let third ← Span.field? .third (s.spans .third)
  return {
    mask := s.mask
    value := s.value
    fields := Vector.replicate 3 none
      |>.setIfInBounds 0 first
      |>.setIfInBounds 1 second
      |>.setIfInBounds 2 third }

end Scan

@[simp] theorem Scan.spans_setSpan_self (s : Scan) (slot : Slot) (span : Span) :
    (s.setSpan slot span).spans slot = some span := by
  simp only [setSpan, Function.update_self]

theorem Scan.spans_setSpan_of_ne {slot other : Slot} (h : other ≠ slot) (s : Scan) (span : Span) :
    (s.setSpan slot span).spans other = s.spans other := by
  simp only [setSpan, Function.update_of_ne h]

@[simp] theorem Scan.spans_fix (s : Scan) (place : Word) (one : Bool) :
    (s.fix place one).spans = s.spans := rfl

def scan (text : String) : Scanning Template := do
  let chars := significant text
  if chars.length ≠ 32 then
    throw (.length chars.length)
  let s ← Scan.steps {} 0 chars
  s.template

/-- What a pass remembers of an operand, the last symbol of which is at position `last`. -/
def spanOf (slot : Slot) (symbols : List Symbol) (last : Nat) : Span where
  highest := .ofNat 8 (31 - symbols.idxOf (.operand slot))
  lowest := .ofNat 8 (31 - last)
  count := .ofNat 8 (symbols.count (.operand slot))

theorem spanOf_snoc_of_ne {slot : Slot} {symbols : List Symbol} {x : Symbol} {last : Nat}
    (hx : x ≠ .operand slot) (hm : .operand slot ∈ symbols) :
    spanOf slot (symbols ++ [x]) last = spanOf slot symbols last := by
  rw [spanOf, spanOf, List.idxOf_append_of_mem hm, List.count_append,
    List.count_eq_zero.mpr (fun h => hx (List.mem_singleton.mp h).symm), Nat.add_zero]

/-- The pass knows these symbols, and nothing else. -/
structure Scan.Knows (s : Scan) (symbols : List Symbol) : Prop where
  mask {n : Nat} : n < 32 → s.mask.getLsbD (31 - n) = (symbols[n]?).any Symbol.isBit
  value {n : Nat} : n < 32 → s.value.getLsbD (31 - n) = (symbols[n]?).any Symbol.isOne
  absent {slot : Slot} : .operand slot ∉ symbols → s.spans slot = none
  present {slot : Slot} {last : Nat} : LastAt (.operand slot) symbols last →
    s.spans slot = some (spanOf slot symbols last)

theorem any_snoc (p : Symbol → Bool) (symbols : List Symbol) (x : Symbol) (n : Nat) :
    ((symbols ++ [x])[n]?).any p =
      ((symbols[n]?).any p || (decide (n = symbols.length) && p x)) := by
  rw [List.getElem?_append]
  split
  · rename_i hn
    simp [Nat.ne_of_lt hn]
  · rename_i hn
    rw [List.getElem?_singleton, List.getElem?_eq_none (Nat.le_of_not_lt hn)]
    by_cases h : n = symbols.length
    · simp [h]
    · simp [h, show n - symbols.length ≠ 0 by omega]

theorem getLsbD_place {n k : Nat} (hn : n < 32) (hk : k < 32) :
    ((1 : Word) <<< (31 - k)).getLsbD (31 - n) = decide (n = k) := by
  change (BitVec.twoPow 32 (31 - k)).getLsbD (31 - n) = decide (n = k)
  rw [BitVec.getLsbD_twoPow, Bool.eq_iff_iff]
  simp only [Bool.and_eq_true, decide_eq_true_eq]
  omega

theorem eq_bitsWhere {p : Symbol → Bool} {symbols : List Symbol} (hl : symbols.length = 32)
    {w : Word} (h : ∀ n < 32, w.getLsbD (31 - n) = (symbols[n]?).any p) :
    w = bitsWhere p symbols := by
  apply BitVec.eq_of_getLsbD_eq
  intro bit hbit
  obtain ⟨n, hn, rfl⟩ := exists_position hbit
  rw [h n hn, getLsbD_bitsWhere _ hl.le, ← symbolAt_mirror (by omega), hl]

theorem fieldOf_of_notMem {slot : Slot} {symbols : List Symbol} (h : .operand slot ∉ symbols) :
    fieldOf slot symbols = .ok none := by
  have hnone : symbols.dropWhile (· != .operand slot) = [] :=
    List.dropWhile_eq_nil_iff.mpr fun x hx => bne_iff_ne.mpr fun he => h (he ▸ hx)
  unfold fieldOf
  rw [hnone]
  rfl

/-- The distance of the last symbol of an operand from the first one tells whether the symbols are
split. -/
theorem field?_spanOf {slot : Slot} {symbols : List Symbol} {last : Nat}
    (hl : symbols.length = 32) (hlast : LastAt (.operand slot) symbols last) :
    (Span.field? slot (some (spanOf slot symbols last))).run = .ok
      (if symbols.count (.operand slot) = last - symbols.idxOf (.operand slot) + 1 then
        .ok (some ⟨31 - last, symbols.count (.operand slot)⟩)
      else .error (.splitField slot)) := by
  have hle := idxOf_le hlast.1
  have hlt : last < symbols.length := (List.getElem?_eq_some_iff.mp hlast.1).1
  have hcount : symbols.count (.operand slot) ≤ symbols.length := List.count_le_length
  have hsub : Strict.sub (spanOf slot symbols last).highest (spanOf slot symbols last).lowest =
      .ok (.ofNat 8 (31 - symbols.idxOf (.operand slot) - (31 - last))) :=
    Strict.sub_ofNat (by omega) (by omega)
  have hadd : Strict.add (.ofNat 8 (31 - symbols.idxOf (.operand slot) - (31 - last))) (1 : Byte) =
      .ok (.ofNat 8 (31 - symbols.idxOf (.operand slot) - (31 - last) + 1)) :=
    Strict.add_ofNat (l := 1) (by omega)
  have hbyte : (spanOf slot symbols last).count.toNat = symbols.count (.operand slot) := by
    rw [spanOf, Strict.toNat_ofNat (by omega)]
  have hreach : BitVec.ofNat 8 (31 - symbols.idxOf (.operand slot) - (31 - last) + 1) =
      (spanOf slot symbols last).count ↔
        symbols.count (.operand slot) = last - symbols.idxOf (.operand slot) + 1 := by
    rw [← BitVec.toNat_inj, hbyte, Strict.toNat_ofNat (by omega)]
    omega
  rw [Span.field?, Scanning.lift_bind hsub, Scanning.lift_bind hadd]
  by_cases hc : symbols.count (.operand slot) = last - symbols.idxOf (.operand slot) + 1
  · rw [if_pos hc, if_neg (not_not.mpr (hreach.mpr hc)), hbyte, spanOf,
      Strict.toNat_ofNat (by omega)]
    rfl
  · rw [if_neg hc, if_pos (fun he => hc (hreach.mp he))]
    rfl

namespace Scan.Knows

variable {s : Scan} {seen : List Symbol}

theorem start : Scan.Knows {} [] where
  mask _ := by simp
  value _ := by simp
  absent _ := rfl
  present h := by simp [LastAt] at h

theorem snoc_bit (h : s.Knows seen) (hl : seen.length < 32) (one : Bool) :
    (s.fix ((1 : Word) <<< (31 - seen.length)) one).Knows (seen ++ [.bit one]) where
  mask {n} hn := by
    rw [fix, BitVec.getLsbD_or, h.mask hn, getLsbD_place hn hl, any_snoc, Symbol.isBit,
      Bool.and_true]
  value {n} hn := by
    rw [any_snoc, ← h.value hn, ← getLsbD_place hn hl]
    cases one <;> simp [Symbol.isOne, fix]
  absent {slot} hs := h.absent fun hm => hs (List.mem_append_left _ hm)
  present {slot last} hlast := by
    have hne : Symbol.bit one ≠ .operand slot := Symbol.noConfusion
    rw [lastAt_snoc_of_ne hne] at hlast
    rw [spans_fix, h.present hlast, spanOf_snoc_of_ne hne (List.mem_of_getElem? hlast.1)]

theorem extend (h : s.Knows seen) (hl : seen.length < 32) (slot : Slot) :
    Span.extend (.ofNat 8 (31 - seen.length)) (s.spans slot) =
      .ok (spanOf slot (seen ++ [.operand slot]) seen.length) := by
  by_cases hm : .operand slot ∈ seen
  · obtain ⟨last, hlast⟩ := exists_lastAt hm
    have hcount : seen.count (.operand slot) ≤ seen.length := List.count_le_length
    have hadd : Strict.add (.ofNat 8 (seen.count (.operand slot))) (1 : Byte) =
        .ok (.ofNat 8 (seen.count (.operand slot) + 1)) := Strict.add_ofNat (l := 1) (by omega)
    rw [h.present hlast, spanOf, spanOf, List.idxOf_append_of_mem hm, List.count_append,
      List.count_singleton_self, Span.extend, hadd]
    rfl
  · rw [h.absent hm, spanOf, List.idxOf_append_of_notMem hm, List.count_append,
      List.count_eq_zero.mpr hm, List.count_singleton_self, List.idxOf_cons_self]
    rfl

theorem snoc_operand (h : s.Knows seen) (slot : Slot) :
    (s.setSpan slot (spanOf slot (seen ++ [.operand slot]) seen.length)).Knows
      (seen ++ [.operand slot]) where
  mask {n} hn := by
    rw [any_snoc, ← h.mask hn]
    simp [Symbol.isBit, setSpan]
  value {n} hn := by
    rw [any_snoc, ← h.value hn]
    simp [Symbol.isOne, setSpan]
  absent {slot'} hs := by
    have hne : slot' ≠ slot := by
      rintro rfl
      exact hs (List.mem_append_right _ (List.mem_singleton_self _))
    rw [spans_setSpan_of_ne hne]
    exact h.absent fun hm => hs (List.mem_append_left _ hm)
  present {slot' last} hlast := by
    by_cases hs : slot' = slot
    · subst hs
      rw [spans_setSpan_self, lastAt_snoc_self hlast]
    · have hne : Symbol.operand slot ≠ .operand slot' := fun he => hs (Symbol.operand.inj he).symm
      rw [lastAt_snoc_of_ne hne] at hlast
      rw [spans_setSpan_of_ne hs, h.present hlast,
        spanOf_snoc_of_ne hne (List.mem_of_getElem? hlast.1)]

theorem step (h : s.Knows seen) (hl : seen.length < 32) (c : Char) :
    match Symbol.ofChar? c with
    | none => (s.step seen.length c).run = .ok (.error (.character c))
    | some x => ∃ s' : Scan,
        (s.step seen.length c).run = .ok (.ok s') ∧ s'.Knows (seen ++ [x]) := by
  have hsub : Strict.sub (31 : Byte) (.ofNat 8 seen.length) = .ok (.ofNat 8 (31 - seen.length)) :=
    Strict.sub_ofNat (k := 31) (by omega) (by decide)
  rw [Scan.step, Scanning.lift_bind hsub]
  cases Symbol.ofChar? c with
  | none => rfl
  | some x =>
    cases x with
    | bit one =>
      refine ⟨_, ?_, h.snoc_bit hl one⟩
      have hshift : Strict.shiftLeft (1 : Word) (31 - seen.length) = .ok _ :=
        Strict.shiftLeft_ok (by omega) _
      dsimp only
      rw [Strict.toNat_ofNat (by omega), Scanning.lift_bind hshift]
      rfl
    | operand slot =>
      refine ⟨_, ?_, h.snoc_operand slot⟩
      dsimp only
      rw [Scanning.lift_bind (h.extend hl slot)]
      rfl

theorem steps (chars : List Char) (h : s.Knows seen) (hl : seen.length + chars.length ≤ 32) :
    match readSymbols chars with
    | .error e => (s.steps seen.length chars).run = .ok (.error e)
    | .ok symbols => ∃ s' : Scan,
        (s.steps seen.length chars).run = .ok (.ok s') ∧ s'.Knows (seen ++ symbols) := by
  induction chars generalizing s seen with
  | nil => exact ⟨s, rfl, (List.append_nil seen).symm ▸ h⟩
  | cons c cs ih =>
    rw [List.length_cons] at hl
    have hstep := h.step (by omega) c
    rw [readSymbols, Scan.steps]
    cases hc : Symbol.ofChar? c with
    | none =>
      rw [hc] at hstep
      exact Scanning.bind_error hstep _
    | some x =>
      rw [hc] at hstep
      obtain ⟨next, hnext, hknows⟩ := hstep
      rw [Scanning.bind_ok hnext]
      have hrest := ih hknows (by rw [List.length_append, List.length_singleton]; omega)
      rw [List.length_append, List.length_singleton] at hrest
      cases hr : readSymbols cs with
      | error e => rwa [hr] at hrest
      | ok symbols =>
        rw [hr] at hrest
        obtain ⟨s', hs', hall⟩ := hrest
        rw [List.append_assoc] at hall
        exact ⟨s', hs', hall⟩

theorem field (h : s.Knows seen) (hl : seen.length = 32) (slot : Slot) :
    (Span.field? slot (s.spans slot)).run = .ok (fieldOf slot seen) := by
  by_cases hm : .operand slot ∈ seen
  · obtain ⟨last, hlast⟩ := exists_lastAt hm
    rw [h.present hlast, field?_spanOf hl hlast]
    cases hf : fieldOf slot seen with
    | error e =>
      obtain ⟨rfl, hsplit⟩ := split_of_fieldOf hf
      rw [if_neg (mt (unsplit_iff_count hlast).mpr hsplit)]
    | ok field =>
      rw [if_pos ((unsplit_iff_count hlast).mp (unsplit_of_fieldOf hf))]
      rcases run_of_fieldOf hf with ⟨-, hnot⟩ | ⟨left, width, lower, rfl, hw, hleft, hlower, rfl⟩
      · exact absurd hm hnot
      · have hend := lastAt_run hw hlower hlast
        simp only [List.length_append, List.length_replicate] at hl
        rw [List.count_append, List.count_append, List.count_eq_zero.mpr hleft,
          List.count_eq_zero.mpr hlower, List.count_replicate_self, Nat.zero_add, Nat.add_zero,
          show 31 - last = lower.length by omega]
  · rw [h.absent hm, fieldOf_of_notMem hm]
    rfl

theorem template (h : s.Knows seen) (hl : seen.length = 32) :
    s.template.run = .ok (ofSymbols seen) := by
  rw [Scan.template, ofSymbols, eq_bitsWhere hl fun _ => h.mask, eq_bitsWhere hl fun _ => h.value]
  refine Scanning.bind_run (h.field hl .first) fun first => ?_
  refine Scanning.bind_run (h.field hl .second) fun second => ?_
  exact Scanning.bind_run (h.field hl .third) fun third => rfl

end Scan.Knows

/-- One pass gives the answer of reading, and never a fault. -/
theorem scan_eq (text : String) : (scan text).run = .ok (read text) := by
  unfold scan read
  dsimp only
  split
  · rfl
  · rename_i hl
    have hlength : (significant text).length = 32 := Decidable.not_not.mp hl
    have hsteps := Scan.Knows.start.steps (significant text) (by simp [hlength])
    cases hr : readSymbols (significant text) with
    | error e =>
      rw [hr] at hsteps
      exact Scanning.bind_error hsteps _
    | ok symbols =>
      rw [hr] at hsteps
      obtain ⟨s, hs, hknows⟩ := hsteps
      have hsymbols : symbols.length = 32 := by
        rw [← hlength, ← map_toChar_of_readSymbols hr, List.length_map]
      exact (Scanning.bind_ok hs _).trans (hknows.template hsymbols)

/-- In one pass over any text no number is out of range, and the template that comes out divides the
word: each bit is fixed or belongs to one field, no bit that is not fixed has a value, and no field
is empty or reaches beyond the word, so no bit that it takes is lost in packing. -/
theorem read_partitions_word (text : String) :
    (scan text).run = .ok (read text) ∧
    ∀ t, read text = .ok t →
      t.value &&& ~~~t.mask = 0 ∧
      (∀ k f, t.field? k = some f →
        0 < f.width ∧ f.lo + f.width ≤ 32 ∧
        (∀ operand, f.pack operand >>> f.lo = operand &&& f.mask) ∧
        (f.mask <<< f.lo) &&& t.mask = 0) ∧
      (∀ j k f g, t.field? j = some f → t.field? k = some g → j ≠ k →
        (f.mask <<< f.lo) &&& (g.mask <<< g.lo) = 0) ∧
      ∀ bit < 32, t.mask.getLsbD bit = true ∨
        ∃ k f, t.field? k = some f ∧ (f.mask <<< f.lo).getLsbD bit = true := by
  refine ⟨scan_eq text, fun t ht => ?_⟩
  have hp := partition_of_read ht
  refine ⟨?_, fun k f hf => ?_, fun j k f g hf hg hne => ?_, fun bit hb => ?_⟩
  · rw [Word.and_eq_zero_iff]
    intro bit hb hv
    rw [BitVec.getLsbD_not, hp.value_fixed hv]
    simp
  · obtain ⟨hw, hend⟩ := hp.bounds hf
    refine ⟨hw, hend, Field.pack_shiftRight hend, ?_⟩
    rw [Word.and_eq_zero_iff]
    intro bit hb hc
    rw [f.getLsbD_mask_shiftLeft hb] at hc
    exact hp.free hf hc
  · rw [Word.and_eq_zero_iff]
    intro bit hb hc
    rw [f.getLsbD_mask_shiftLeft hb] at hc
    rw [g.getLsbD_mask_shiftLeft hb]
    exact Bool.eq_false_iff.mpr fun hd => hne (hp.apart hf hg hc hd)
  · refine (hp.total hb).imp_right ?_
    rintro ⟨k, f, hf, hc⟩
    exact ⟨k, f, hf, (f.getLsbD_mask_shiftLeft hb).trans hc⟩

/-- A word that is all one field. -/
theorem read_partitions_word_undivided :
    ∃ t, read "ffffffff ffffffff ffffffff ffffffff" = .ok t ∧ t.field? 0 = some ⟨0, 32⟩ ∧
      (∀ operand, (⟨0, 32⟩ : Field).pack operand >>> 0 = operand &&& (⟨0, 32⟩ : Field).mask) ∧
      ((⟨0, 32⟩ : Field).mask <<< 0) &&& t.mask = 0 := by
  have hread : read "ffffffff ffffffff ffffffff ffffffff" =
      .ok ⟨0, 0, #v[some ⟨0, 32⟩, none, none]⟩ := by decide +kernel
  obtain ⟨-, hfields, -, -⟩ := (read_partitions_word _).2 _ hread
  obtain ⟨-, -, hpack, hfree⟩ := hfields 0 ⟨0, 32⟩ rfl
  exact ⟨_, hread, rfl, hpack, hfree⟩

end Template

end WordMachine
