import WordMachine.Proofs.Contents

namespace WordMachine

namespace Word

/-- The address that lies so many words further on, modulo the address space. -/
def wordsOn (address : Word) (n : Nat) : Word := .ofNat 32 (address.toNat + 4 * n)

theorem toNat_add_four (address : Word) :
    (address + 4).toNat = (address.toNat + 4) % 0x100000000 := BitVec.toNat_add _ _

theorem wordsOn_zero (address : Word) : address.wordsOn 0 = address := by
  simp [wordsOn]

theorem wordsOn_succ (address : Word) (n : Nat) :
    address.wordsOn (n + 1) = (address + 4).wordsOn n := by
  apply BitVec.eq_of_toNat_eq
  simp only [wordsOn, BitVec.toNat_ofNat, toNat_add_four]
  omega

end Word

namespace Memory

/-- The word that lies so many words after an aligned address is wholly inside memory. The address
space ends with 32 bits even if the window does not. -/
structure Fits (m : Memory) (address : Word) (n : Nat) : Prop where
  aligned : address.toNat % 4 = 0
  above : m.base.toNat ≤ address.toNat
  within : address.toNat + 4 * (n + 1) ≤ min (m.base.toNat + m.size) 0x100000000

/-- Memory does not take up the whole address space. -/
def LeavesRoom (m : Memory) : Prop := 0 < m.base.toNat ∨ m.size < 0x100000000

/-- The first `k` of these words stand in the second memory, one after the other from the address
upwards. All else is as in the first memory. -/
structure Receives (m : Memory) (address : Word) (ws : List Word) (k : Nat) (m' : Memory) :
    Prop where
  words : ∀ n w, n < k → ws[n]? = some w → m'.read (address.wordsOn n) = .ok w
  others : ∀ offset, m.base.toNat + offset < address.toNat ∨
    address.toNat + 4 * k ≤ m.base.toNat + offset → m'.byteAt offset = m.byteAt offset
  base : m'.base = m.base
  size : m'.size = m.size
  order : m'.order = m.order

/-- The error of the first word that does not fit. -/
def misfit (address : Word) (k : Nat) : AddressError :=
  if address.toNat % 4 = 0 then .outOfRange (address.wordsOn k) else .misaligned address

variable {m m' : Memory} {address : Word}

theorem fits_zero_of_locate {offset : Nat} (h : m.locate address = .ok offset) :
    m.Fits address 0 := by
  obtain ⟨haligned, hbase, hfits⟩ := locate_eq_ok_iff.mp h
  have := address.isLt
  exact ⟨haligned, by omega, by omega⟩

theorem not_fits_of_locate {e : AddressError} (h : m.locate address = .error e) (n : Nat) :
    ¬ m.Fits address n := by
  rintro ⟨haligned, habove, hwithin⟩
  rw [locate_eq_error_iff] at h
  omega

/-- After a word that fits there is room for as many more as there is from the next address on. If
that is 0 again, there is none. -/
theorem fits_succ_iff (room : m.LeavesRoom) (h : m.Fits address 0) (n : Nat) :
    m.Fits address (n + 1) ↔ m.Fits (address + 4) n := by
  have hlt := address.isLt
  have hnext := address.toNat_add_four
  obtain ⟨haligned, habove, hwithin⟩ := h
  constructor
  · rintro ⟨-, -, hfits⟩
    exact ⟨by omega, by omega, by omega⟩
  · rintro ⟨-, habove', hfits⟩
    unfold LeavesRoom at room
    exact ⟨haligned, habove, by omega⟩

theorem fits_setWordAt (m : Memory) (offset : Nat) (w : Word) (n : Nat) :
    (m.setWordAt offset w).Fits address n ↔ m.Fits address n := by
  constructor
  · rintro ⟨haligned, habove, hwithin⟩
    rw [base_setWordAt] at habove hwithin
    rw [size_setWordAt] at hwithin
    exact ⟨haligned, habove, hwithin⟩
  · rintro ⟨haligned, habove, hwithin⟩
    rw [← base_setWordAt m offset w] at habove hwithin
    rw [← size_setWordAt m offset w] at hwithin
    exact ⟨haligned, habove, hwithin⟩

theorem misfit_succ (aligned : address.toNat % 4 = 0) (k : Nat) :
    misfit address (k + 1) = misfit (address + 4) k := by
  have hnext : (address + 4).toNat % 4 = 0 := by
    rw [Word.toNat_add_four]
    omega
  rw [misfit, misfit, if_pos aligned, if_pos hnext, Word.wordsOn_succ]

theorem receives_nothing (m : Memory) (address : Word) (ws : List Word) :
    m.Receives address ws 0 m where
  words := nofun
  others _ _ := rfl
  base := rfl
  size := rfl
  order := rfl

/-- One word is put in place and more of them from the next address on. None of these comes back to
the first word, as there is no room past the end of the address space. -/
theorem Receives.cons {w : Word} {ws : List Word} {k offset : Nat}
    (located : m.locate address = .ok offset)
    (fits : 0 < k → m.Fits address 1)
    (h : (m.setWordAt offset w).Receives (address + 4) ws k m') :
    m.Receives address (w :: ws) (k + 1) m' := by
  obtain ⟨haligned, hbase, hfits⟩ := locate_eq_ok_iff.mp located
  have hothers := h.others
  rw [base_setWordAt] at hothers
  have hnext : (address + 4).toNat = address.toNat + 4 ∨ k = 0 := by
    rcases Nat.eq_zero_or_pos k with hk | hk
    · exact .inr hk
    · have hwithin := (fits hk).within
      rw [Word.toNat_add_four]
      omega
  constructor
  case words =>
    intro n v hn hv
    cases n with
    | zero =>
      obtain rfl := Option.some.inj hv
      have hlocate : m'.locate address = .ok offset := by
        rw [locate_congr h.base h.size, locate_setWordAt, located]
      have hword : m'.wordAt offset = (m.setWordAt offset w).wordAt offset :=
        wordAt_congr h.order fun i hi => hothers (offset + i) (by omega)
      rw [Word.wordsOn_zero, read_ok hlocate, hword, wordAt_setWordAt m offset w hfits]
    | succ n =>
      rw [Word.wordsOn_succ]
      exact h.words n v (by omega) hv
  case others =>
    intro other hother
    rw [hothers other (by omega), byteAt_setWordAt _ _ _ _ hfits, if_neg (by omega)]
  case base => rw [h.base, base_setWordAt]
  case size => rw [h.size, size_setWordAt]
  case order => rw [h.order, order_setWordAt]

theorem writeAll_receives (room : m.LeavesRoom) (address : Word) (ws : List Word) :
    ∃ k ≤ ws.length, (∀ n < ws.length, n < k ↔ m.Fits address n) ∧
      (m.writeAll address ws).result =
        (if k = ws.length then .ok () else .error (misfit address k)) ∧
      m.Receives address ws k (m.writeAll address ws).state := by
  -- Each word leaves room for the others from the next address on.
  induction ws generalizing m address with
  | nil => exact ⟨0, by simp, by simp, by simp [writeAll], receives_nothing m address []⟩
  | cons w ws ih =>
    cases hl : m.locate address with
    | error e =>
      rw [writeAll_cons_of_error hl]
      refine ⟨0, by simp, fun n _ => ?_, ?_, receives_nothing m address _⟩
      · simp [not_fits_of_locate hl n]
      · have he := locate_eq_error_iff.mp hl
        simp only [misfit, Word.wordsOn_zero]
        grind
    | ok offset =>
      rw [writeAll_cons_of_ok hl]
      have hfits := fits_zero_of_locate hl
      have hroom : (m.setWordAt offset w).LeavesRoom := by
        unfold LeavesRoom
        rw [size_setWordAt, base_setWordAt]
        exact room
      obtain ⟨k, hk, hcount, hresult, hreceives⟩ := ih hroom (address + 4)
      have hnext : 0 < k → m.Fits address 1 := by
        intro hpos
        have hzero := (hcount 0 (by omega)).mp hpos
        rw [fits_setWordAt] at hzero
        exact (fits_succ_iff room hfits 0).mpr hzero
      refine ⟨k + 1, by simpa using hk, fun n hn => ?_, ?_, hreceives.cons hl hnext⟩
      · cases n with
        | zero => simp [hfits]
        | succ n =>
          rw [fits_succ_iff room hfits, ← fits_setWordAt m offset w, ← hcount n (by simpa using hn)]
          omega
      · simp only [hresult, misfit_succ hfits.aligned, List.length_cons, Nat.add_right_cancel_iff]

/-- The last of the words fits only if all do. -/
theorem forall_fits_iff (m : Memory) (address : Word) (count : Nat) :
    (∀ n < count, m.Fits address n) ↔
      count = 0 ∨ address.toNat % 4 = 0 ∧ m.base.toNat ≤ address.toNat ∧
        address.toNat + 4 * count ≤ min (m.base.toNat + m.size) 0x100000000 := by
  cases count with
  | zero => simp
  | succ count =>
    constructor
    · intro h
      obtain ⟨haligned, habove, hwithin⟩ := h count (Nat.lt_succ_self count)
      exact .inr ⟨haligned, habove, hwithin⟩
    · rintro (h | ⟨haligned, habove, hwithin⟩) n hn
      · cases h
      · exact ⟨haligned, habove, by omega⟩

end Memory

namespace Machine

/-- Unless memory takes up the whole address space, loading puts into it as many of the words as
fit from the address upwards, and changes nothing else. It succeeds if and only if all of them fit,
and otherwise its error is about the first that does not. -/
theorem load_puts_what_fits {m : Machine} (room : m.memory.LeavesRoom) (address : Word)
    (ws : List Word) :
    ((m.load address ws).result = .ok () ↔
      ws = [] ∨ address.toNat % 4 = 0 ∧ m.memory.base.toNat ≤ address.toNat ∧
        address.toNat + 4 * ws.length ≤
          min (m.memory.base.toNat + m.memory.size) 0x100000000) ∧
    ∃ k ≤ ws.length, (∀ n < ws.length, n < k ↔ m.memory.Fits address n) ∧
      (m.load address ws).result =
        (if k = ws.length then .ok ()
          else if address.toNat % 4 = 0 then .error (.outOfRange (address.wordsOn k))
          else .error (.misaligned address)) ∧
      m.memory.Receives address ws k (m.load address ws).state.memory ∧
      (m.load address ws).state.registers = m.registers := by
  obtain ⟨k, hk, hcount, hresult, hreceives⟩ := Memory.writeAll_receives room address ws
  rw [load_result, load_state, hresult]
  refine ⟨?_, k, hk, hcount, ?_, hreceives, rfl⟩
  · rw [← List.length_eq_zero_iff, ← Memory.forall_fits_iff]
    constructor
    · intro h n hn
      split at h
      · exact (hcount n hn).mp (by omega)
      · cases h
    · intro h
      have hall : ¬ k < ws.length := fun hlt => Nat.lt_irrefl k ((hcount k hlt).mpr (h k hlt))
      rw [if_pos (by omega)]
  · unfold Memory.misfit
    split
    · rfl
    · split <;> rfl

/-- The third word would be the first of the address space, which this memory leaves out. -/
theorem load_puts_what_fits_top :
    let m : Machine := ofConfig { base := 0xfffffff8, size := 12 }
    m.memory.LeavesRoom ∧
      (m.load 0xfffffff8 [1, 2, 3]).result = .error (.outOfRange 0) ∧
      (m.load 0xfffffff8 [1, 2, 3]).state.memory.read 0xfffffff8 = .ok 1 ∧
      (m.load 0xfffffff8 [1, 2, 3]).state.memory.read 0xfffffffc = .ok 2 := by
  intro m
  have hroom : m.memory.LeavesRoom := .inl (by decide)
  obtain ⟨-, k, hk, hcount, hresult, hreceives, -⟩ :=
    load_puts_what_fits hroom 0xfffffff8 [1, 2, 3]
  have htwo : k = 2 := by
    have hsecond : 1 < k := (hcount 1 (by decide)).mpr ⟨by decide, by decide, by decide⟩
    have hthird : ¬ 2 < k := fun h => absurd ((hcount 2 (by decide)).mp h).within (by decide)
    omega
  subst htwo
  exact ⟨hroom, hresult, hreceives.words 0 1 (by decide) rfl, hreceives.words 1 2 (by decide) rfl⟩

end Machine

end WordMachine
