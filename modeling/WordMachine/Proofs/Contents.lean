import WordMachine.Machine

namespace WordMachine

namespace Registers

theorem ext_get {rs rs' : Registers} (zero : rs.zero = rs'.zero)
    (get : ∀ r, rs.get r = rs'.get r) : rs = rs' := by
  obtain ⟨z, values⟩ := rs
  obtain ⟨z', values'⟩ := rs'
  obtain rfl : z = z' := zero
  refine congrArg (Registers.mk z) (Vector.ext fun k hk => ?_)
  exact get ⟨k, hk⟩

theorem get_set_self (rs : Registers) (r : Register) (value : Word) :
    (rs.set r value).get r = if r = 0 ∧ rs.zero = .hardwired then rs.get r else value := by
  by_cases h : r = 0 ∧ rs.zero = .hardwired <;> simp [get_set, discards, h]

theorem get_set_of_ne (rs : Registers) {r s : Register} (h : s ≠ r) (value : Word) :
    (rs.set r value).get s = rs.get s := by
  simp [get_set, h]

theorem set_comm (rs : Registers) {r s : Register} (h : r ≠ s) (v w : Word) :
    (rs.set r v).set s w = (rs.set s w).set r v := by
  refine ext_get (by simp only [zero_set]) fun q => ?_
  simp only [get_set, discards, zero_set]
  grind

end Registers

theorem ByteOrder.byteOf_join (order : ByteOrder) (a b c d : Byte) :
    order.byteOf (order.join a b c d) 0 = a ∧ order.byteOf (order.join a b c d) 1 = b ∧
      order.byteOf (order.join a b c d) 2 = c ∧ order.byteOf (order.join a b c d) 3 = d := by
  refine ⟨?_, ?_, ?_, ?_⟩
  all_goals
    cases order <;> apply BitVec.eq_of_getLsbD_eq <;> intro i hi <;>
      simp only [join, byteOf, BitVec.getLsbD_append, BitVec.getLsbD_extractLsb'] <;> grind

namespace Memory

theorem byteAt_init (base : Word) (size : Nat) (order : ByteOrder) (offset : Nat) :
    (init base size order).byteAt offset = 0 := by
  rw [byteAt, init, Array.getElem?_replicate]
  split <;> rfl

theorem wordAt_init (base : Word) (size : Nat) (order : ByteOrder) (offset : Nat) :
    (init base size order).wordAt offset = 0 := by
  simp only [wordAt, byteAt_init]
  cases order <;> rfl

variable {m m' : Memory}

theorem getElem?_bytes {offset : Nat} (h : offset < m.size) :
    m.bytes[offset]? = some (m.byteAt offset) := by
  rw [byteAt, Array.getElem?_eq_getElem h]
  rfl

theorem byteOf_wordAt (m : Memory) (offset : Nat) {k : Nat} (hk : k < 4) :
    m.order.byteOf (m.wordAt offset) k = m.byteAt (offset + k) := by
  obtain ⟨h0, h1, h2, h3⟩ := m.order.byteOf_join (m.byteAt offset) (m.byteAt (offset + 1))
    (m.byteAt (offset + 2)) (m.byteAt (offset + 3))
  match k, hk with
  | 0, _ => exact h0
  | 1, _ => exact h1
  | 2, _ => exact h2
  | 3, _ => exact h3

theorem ext_byteAt (base : m.base = m'.base) (order : m.order = m'.order)
    (size : m.size = m'.size) (byteAt : ∀ offset, m.byteAt offset = m'.byteAt offset) :
    m = m' := by
  obtain ⟨b, o, bytes⟩ := m
  obtain ⟨b', o', bytes'⟩ := m'
  obtain rfl : b = b' := base
  obtain rfl : o = o' := order
  refine congrArg (Memory.mk b o) (Array.ext size fun k hk hk' => ?_)
  have := byteAt k
  simpa [Memory.byteAt, hk, hk'] using this

theorem locate_congr (base : m.base = m'.base) (size : m.size = m'.size) (address : Word) :
    m.locate address = m'.locate address := by
  simp only [locate, base, size]

theorem wordAt_of_read (base : m.base = m'.base) (size : m.size = m'.size) {address : Word}
    {offset : Nat} (hl : m.locate address = .ok offset) (read : m.read address = m'.read address) :
    m.wordAt offset = m'.wordAt offset := by
  have hl' : m'.locate address = .ok offset := (locate_congr base size address).symm.trans hl
  rw [read_ok hl, read_ok hl'] at read
  exact Except.ok.inj read

theorem read_eq_ok_iff {address w : Word} :
    m.read address = .ok w ↔ ∃ offset, m.locate address = .ok offset ∧ m.wordAt offset = w := by
  cases hl : m.locate address with
  | error e =>
    rw [read_error hl]
    simp
  | ok offset =>
    rw [read_ok hl]
    simp

@[simp] theorem locate_setWordAt (m : Memory) (offset : Nat) (w address : Word) :
    (m.setWordAt offset w).locate address = m.locate address := by
  rw [locate, size_setWordAt, base_setWordAt, locate]

theorem setWordAt_comm (m : Memory) {i j : Nat} (v w : Word) (hi : i + 4 ≤ m.size)
    (hj : j + 4 ≤ m.size) (apart : j + 4 ≤ i ∨ i + 4 ≤ j) :
    (m.setWordAt i v).setWordAt j w = (m.setWordAt j w).setWordAt i v := by
  apply ext_byteAt
  case base => simp only [base_setWordAt]
  case order => simp only [order_setWordAt]
  case size => simp only [size_setWordAt]
  case byteAt =>
    intro k
    rw [byteAt_setWordAt _ _ _ _ (by simpa using hj), byteAt_setWordAt _ _ _ _ hi,
      byteAt_setWordAt _ _ _ _ (by simpa using hi), byteAt_setWordAt _ _ _ _ hj]
    simp only [order_setWordAt]
    split
    · rw [if_neg (by omega)]
    · rfl

theorem locate_apart {a b : Word} {i j : Nat} (ha : m.locate a = .ok i)
    (hb : m.locate b = .ok j) (hne : i ≠ j) : j + 4 ≤ i ∨ i + 4 ≤ j := by
  have hi := locate_eq_ok_iff.mp ha
  have hj := locate_eq_ok_iff.mp hb
  omega

theorem locate_inj {a b : Word} {offset : Nat} (ha : m.locate a = .ok offset)
    (hb : m.locate b = .ok offset) : a = b := by
  have hi := locate_eq_ok_iff.mp ha
  have hj := locate_eq_ok_iff.mp hb
  exact BitVec.eq_of_toNat_eq (by omega)

theorem read_setWordAt {address : Word} {offset : Nat} (hl : m.locate address = .ok offset)
    (value other : Word) :
    (m.setWordAt offset value).read other =
      if other = address then .ok value else m.read other := by
  have hfits := (locate_eq_ok_iff.mp hl).2.2
  by_cases heq : other = address
  · subst heq
    rw [if_pos rfl, read_ok (by rw [locate_setWordAt, hl]), wordAt_setWordAt _ _ _ hfits]
  · rw [if_neg heq]
    cases ho : m.locate other with
    | error e => rw [read_error ho, read_error (by rw [locate_setWordAt, ho])]
    | ok place =>
      have hne : offset ≠ place := by
        rintro rfl
        exact heq (locate_inj ho hl)
      rw [read_ok ho, read_ok (by rw [locate_setWordAt, ho]),
        wordAt_setWordAt_of_disjoint _ _ _ _ hfits (locate_apart hl ho hne)]

end Memory

end WordMachine
