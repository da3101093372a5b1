import Mathlib.Algebra.Group.Nat.Defs
import WordMachine.Machine
import WordMachine.Proofs.Primality
import WordMachine.Proofs.Strict

namespace WordMachine

theorem Register.ofIndex_of_bounds {index : Word} (h : 0 ≤ index.toInt ∧ index.toInt < 32) :
    ∃ r, Register.ofIndex index = .ok r ∧ index.toNat = r.val := by
  cases hr : Register.ofIndex index with
  | ok r => exact ⟨r, rfl, ofIndex_eq_ok_iff.mp hr⟩
  | error e =>
    have hbounds := (ofIndex_eq_error_iff.mp hr).1
    omega

theorem Register.ofIndex_of_not_bounds {index : Word} (h : ¬ (0 ≤ index.toInt ∧ index.toInt < 32)) :
    Register.ofIndex index = .error ⟨index⟩ :=
  ofIndex_eq_error_iff.mpr ⟨by omega, rfl⟩

namespace Registers

def readStrict (rs : Registers) (index : Word) : Strict (Except InvalidRegister Word) :=
  if 0 ≤ index.toInt ∧ index.toInt < 32 then do
    return .ok (← Strict.index rs.values.toList index.toNat)
  else return .error ⟨index⟩

/-- A place has to be there to be written. A write that is lost needs none. -/
def writeStrict (rs : Registers) (index value : Word) :
    Strict (Outcome Registers InvalidRegister Unit) :=
  if 0 ≤ index.toInt ∧ index.toInt < 32 then
    if index = 0 ∧ rs.zero = .hardwired then
      return {
        result := .ok ()
        state := rs
        log := if value ≠ 0 then [.writeDiscarded value] else [] }
    else do
      let _ ← Strict.index rs.values.toList index.toNat
      return {
        result := .ok ()
        state := { rs with values := rs.values.setIfInBounds index.toNat value } }
  else return { result := .error ⟨index⟩, state := rs }

variable (rs : Registers)

theorem index_values (r : Register) : Strict.index rs.values.toList r.val = .ok (rs.get r) :=
  Strict.index_ok (by simp [get])

theorem readStrict_eq (index : Word) : rs.readStrict index = .ok (rs.read index) := by
  unfold readStrict read
  split
  · rename_i h
    obtain ⟨r, hr, hindex⟩ := Register.ofIndex_of_bounds h
    rw [hr, hindex, index_values]
    rfl
  · rename_i h
    rw [Register.ofIndex_of_not_bounds h]
    rfl

theorem discards_iff {index : Word} {r : Register} (h : index.toNat = r.val) :
    rs.discards r = true ↔ index = 0 ∧ rs.zero = .hardwired := by
  have hzero : index = 0 ↔ r = 0 := by
    rw [← BitVec.toNat_inj, h, Fin.ext_iff]
    rfl
  rw [discards, Bool.and_eq_true, beq_iff_eq, beq_iff_eq, hzero]

theorem writeStrict_eq (index value : Word) :
    rs.writeStrict index value = .ok (rs.write index value) := by
  unfold writeStrict write
  split
  · rename_i h
    obtain ⟨r, hr, hindex⟩ := Register.ofIndex_of_bounds h
    rw [hr]
    split
    · rename_i hlost
      have hd := (rs.discards_iff hindex).mpr hlost
      simp [set, setEvents, hd]
      rfl
    · rename_i hkept
      have hd := mt (rs.discards_iff hindex).mp hkept
      rw [hindex, Strict.bind_ok (rs.index_values r)]
      have hset : rs.values.setIfInBounds r.val value = rs.values.set r value := by
        apply Vector.ext
        simp [Vector.getElem_setIfInBounds, Vector.getElem_set]
      simp [set, setEvents, hd, hset]
      rfl
  · rename_i h
    rw [Register.ofIndex_of_not_bounds h]
    rfl

end Registers

namespace Memory

/-- The distance from the base, with 64 bits. An end of the word that is too large for them is out
of range, and no fault. -/
def locateStrict (m : Memory) (address : Word) : Strict (Except AddressError (BitVec 64)) := do
  if (← Strict.rem address 4) ≠ 0 then
    return .error (.misaligned address)
  if address < m.base then
    return .error (.outOfRange address)
  let offset := (address - m.base).setWidth 64
  match Strict.add offset 4 with
  | .ok stop => return if stop.toNat ≤ m.size then .ok offset else .error (.outOfRange address)
  | .error _ => return .error (.outOfRange address)

/-- The distance from the base to the slice that holds the word. The slice has to lie inside. -/
def sliceStrict (m : Memory) (address : Word) : Strict (Except AddressError Nat) := do
  match ← m.locateStrict address with
  | .error e => return .error e
  | .ok offset =>
    let stop ← Strict.add offset 4
    Strict.slice m.size offset.toNat stop.toNat
    return .ok offset.toNat

def readStrict (m : Memory) (address : Word) : Strict (Except AddressError Word) := do
  return m.wordAt <$> (← m.sliceStrict address)

def writeStrict (m : Memory) (address value : Word) :
    Strict (Outcome Memory AddressError Unit) := do
  match ← m.sliceStrict address with
  | .error e => return { result := .error e, state := m }
  | .ok offset => return { result := .ok (), state := m.setWordAt offset value }

variable (m : Memory) (address : Word)

theorem locateStrict_eq : m.locateStrict address = .ok (BitVec.ofNat 64 <$> m.locate address) := by
  have hrem : Strict.rem address 4 = .ok (address % 4) := Strict.rem_ok (by decide) address
  have hzero : address % 4 ≠ 0 ↔ address.toNat % 4 ≠ 0 := by
    rw [ne_eq, ← BitVec.toNat_inj]
    rfl
  unfold locateStrict locate
  rw [Strict.bind_ok hrem]
  by_cases hmisaligned : address.toNat % 4 ≠ 0
  · rw [if_pos hmisaligned, if_pos (hzero.mpr hmisaligned)]
    rfl
  rw [if_neg hmisaligned, if_neg (mt hzero.mp hmisaligned)]
  by_cases hbelow : address.toNat < m.base.toNat
  · rw [if_pos hbelow]
    exact if_pos hbelow
  rw [if_neg hbelow]
  refine (if_neg hbelow).trans ?_
  have hle : m.base ≤ address := Nat.le_of_not_lt hbelow
  have hoffset : (address - m.base).setWidth 64 =
      BitVec.ofNat 64 (address.toNat - m.base.toNat) := by
    apply BitVec.eq_of_toNat_eq
    rw [BitVec.toNat_setWidth, BitVec.toNat_sub_of_le hle, BitVec.toNat_ofNat]
  have hadd : Strict.add (BitVec.ofNat 64 (address.toNat - m.base.toNat)) 4 =
      .ok (.ofNat 64 (address.toNat - m.base.toNat + 4)) := Strict.add_ofNat (l := 4) (by omega)
  have hstop : (BitVec.ofNat 64 (address.toNat - m.base.toNat + 4)).toNat =
      address.toNat - m.base.toNat + 4 := Strict.toNat_ofNat (by omega)
  dsimp only
  rw [hoffset, hadd]
  dsimp only
  rw [hstop]
  split
  · rename_i hinside
    rw [if_neg (Nat.not_lt_of_le hinside)]
    rfl
  · rename_i houtside
    rw [if_pos (Nat.lt_of_not_le houtside)]
    rfl

/-- An address that is found is found inside, so its slice is. -/
theorem sliceStrict_eq : m.sliceStrict address = .ok (m.locate address) := by
  rw [sliceStrict, Strict.bind_ok (m.locateStrict_eq address)]
  cases h : m.locate address with
  | error e => rfl
  | ok offset =>
    obtain ⟨-, haddress, hsize⟩ := locate_eq_ok_iff.mp h
    have hoffset : (BitVec.ofNat 64 offset).toNat = offset := Strict.toNat_ofNat (by omega)
    have hstop : (BitVec.ofNat 64 (offset + 4)).toNat = offset + 4 := Strict.toNat_ofNat (by omega)
    have hadd : Strict.add (BitVec.ofNat 64 offset) 4 = .ok (.ofNat 64 (offset + 4)) :=
      Strict.add_ofNat (l := 4) (by omega)
    have hslice : Strict.slice m.size offset (offset + 4) = .ok () :=
      Strict.slice_ok (Nat.le_add_right _ _) hsize
    rw [Except.map_ok]
    dsimp only
    rw [Strict.bind_ok hadd, hoffset, hstop, Strict.bind_ok hslice]
    rfl

theorem readStrict_eq : m.readStrict address = .ok (m.read address) := by
  rw [readStrict, sliceStrict_eq]
  rfl

theorem writeStrict_eq (value : Word) :
    m.writeStrict address value = .ok (m.write address value) := by
  rw [writeStrict, sliceStrict_eq]
  cases h : m.locate address with
  | error e =>
    rw [write_error h]
    rfl
  | ok offset =>
    rw [write_ok h]
    rfl

end Memory

namespace Word

/-- There is no root of a negative number. -/
def sqrtStrict (n : Word) : Strict Word :=
  if n.toInt < 0 then .error .negativeRoot else .ok (BitVec.ofNat 32 n.toNat.sqrt)

def candidates (root : Word) : List Word :=
  (List.range' 3 ((root.toNat - 1) / 2) 2).map (BitVec.ofNat 32)

/-- The first candidate that divides the number is the last one tried. -/
def tryStrict (n : Word) : List Word → Strict Bool
  | [] => return true
  | d :: ds => do
    if (← Strict.remSigned n d) = 0 then
      return false
    n.tryStrict ds

def isPrimeStrict (n : Word) : Strict Bool := do
  if n.toInt ≤ 1 then
    return false
  if n = 2 ∨ n = 3 then
    return true
  if n &&& 1 = 0 then
    return false
  n.tryStrict (candidates (← n.sqrtStrict))

variable {n : Word}

theorem remSigned_eq {d : Word} (hn : 0 < n.toInt) (hd : 0 < d.toInt) :
    Strict.remSigned n d = .ok (n % d) := by
  have hzero : d ≠ 0 := by
    rintro rfl
    exact absurd hd (by decide)
  have hmin : n ≠ BitVec.intMin 32 := by
    rintro rfl
    exact absurd hn (by decide)
  have hmsb {w : Word} (hw : 0 < w.toInt) : w.msb = false := by
    rw [BitVec.msb_eq_toInt]
    simp
    omega
  rw [Strict.remSigned_ok hzero hmin, BitVec.srem_eq, hmsb hn, hmsb hd]

theorem tryStrict_eq (hn : 0 < n.toInt) {ds : List Word} (hds : ∀ d ∈ ds, 0 < d.toInt) :
    n.tryStrict ds = .ok (ds.all fun d => n.toNat % d.toNat != 0) := by
  induction ds with
  | nil => rfl
  | cons d ds ih =>
    have hrest := ih fun e he => hds e (List.mem_cons_of_mem d he)
    rw [tryStrict, Strict.bind_ok (remSigned_eq hn (hds d List.mem_cons_self)), List.all_cons,
      hrest]
    have hzero : n % d = 0 ↔ n.toNat % d.toNat = 0 := by
      rw [← BitVec.toNat_inj, BitVec.toNat_umod]
      rfl
    by_cases hd : n.toNat % d.toNat = 0
    · rw [if_pos (hzero.mpr hd), hd]
      rfl
    · rw [if_neg (mt hzero.mp hd), bne_iff_ne.mpr hd, Bool.true_and]

theorem mem_candidates_iff {root d : Word} :
    d ∈ candidates root ↔ ∃ k < (root.toNat - 1) / 2, BitVec.ofNat 32 (3 + 2 * k) = d := by
  simp only [candidates, List.mem_map, List.mem_range']
  constructor
  · rintro ⟨_, ⟨k, hk, rfl⟩, rfl⟩
    exact ⟨k, hk, rfl⟩
  · rintro ⟨k, hk, rfl⟩
    exact ⟨_, ⟨k, hk, rfl⟩, rfl⟩

/-- No candidate is zero, and they are the odd numbers up to the root. -/
theorem try_candidates (hn : 0 < n.toInt) :
    n.tryStrict (candidates (BitVec.ofNat 32 n.toNat.sqrt)) = .ok (noOddDivisorFrom n.toNat 3) := by
  have hlt := n.isLt
  have hroot : n.toNat.sqrt < 2 ^ 16 := Nat.sqrt_lt'.mpr (by omega)
  have hsqrt : (BitVec.ofNat 32 n.toNat.sqrt).toNat = n.toNat.sqrt := Strict.toNat_ofNat (by omega)
  have hcandidate {k : Nat} (hk : k < (n.toNat.sqrt - 1) / 2) :
      (BitVec.ofNat 32 (3 + 2 * k)).toNat = 3 + 2 * k := Strict.toNat_ofNat (by omega)
  rw [tryStrict_eq hn ?_]
  · congr 1
    rw [Bool.eq_iff_iff, List.all_eq_true, noOddDivisorFrom_iff (by decide)]
    simp only [bne_iff_ne, mem_candidates_iff, hsqrt]
    constructor
    · intro h e h3 hodd hee hdvd
      have hle : e ≤ n.toNat.sqrt := Nat.le_sqrt.mpr hee
      have hk : (e - 3) / 2 < (n.toNat.sqrt - 1) / 2 := by omega
      have hne := h _ ⟨(e - 3) / 2, hk, rfl⟩
      rw [hcandidate hk, show 3 + 2 * ((e - 3) / 2) = e by omega] at hne
      exact hne (Nat.mod_eq_zero_of_dvd hdvd)
    · rintro h _ ⟨k, hk, rfl⟩
      rw [hcandidate hk]
      have hle : 3 + 2 * k ≤ n.toNat.sqrt := by omega
      intro hzero
      exact h _ (by omega) (by omega) (Nat.le_sqrt.mp hle) (Nat.dvd_of_mod_eq_zero hzero)
  · intro d hd
    obtain ⟨k, hk, rfl⟩ := mem_candidates_iff.mp hd
    rw [hsqrt] at hk
    have hd := hcandidate hk
    rw [BitVec.toInt_eq_toNat_of_lt (by omega), hd]
    omega

theorem isPrimeStrict_eq (n : Word) : n.isPrimeStrict = .ok n.isPrime := by
  unfold isPrimeStrict
  by_cases h1 : n.toInt ≤ 1
  · have hsmall : n.isPrime = false := if_pos (by omega)
    rw [if_pos h1, hsmall]
    rfl
  have htoNat : n.toInt = n.toNat := by
    rw [BitVec.toInt_eq_toNat_cond] at h1 ⊢
    split at h1 <;> omega
  have hbig : ¬ n.toNat ≤ 1 := by omega
  rw [if_neg h1, isPrime, htoNat, Int.toNat_natCast, primeByTrial, if_neg hbig]
  by_cases h3 : n = 2 ∨ n = 3
  · rw [if_pos h3, if_pos (by rcases h3 with rfl | rfl <;> decide)]
    rfl
  have h3' : ¬ n.toNat ≤ 3 := by
    simp only [← BitVec.toNat_inj] at h3
    simp at h3
    omega
  rw [if_neg h3, if_neg h3']
  have heven : n &&& 1 = 0 ↔ n.toNat % 2 = 0 := by
    rw [← BitVec.toNat_inj, BitVec.toNat_and]
    simp [Nat.and_one_is_mod]
  by_cases he : n.toNat % 2 = 0
  · rw [if_pos (heven.mpr he), if_pos he]
    rfl
  rw [if_neg (mt heven.mp he), if_neg he, ← try_candidates (by omega)]
  exact Strict.bind_ok (if_neg (by omega)) _

end Word

end WordMachine
