import WordMachine.Event

namespace WordMachine

/-- Which end of a word is stored at the lowest address. -/
inductive ByteOrder
  | little
  | big
  deriving DecidableEq

namespace ByteOrder

def name : ByteOrder → String
  | .little => "Little"
  | .big => "Big"

def join : ByteOrder → Byte → Byte → Byte → Byte → Word
  | .little, a, b, c, d => d ++ c ++ b ++ a
  | .big, a, b, c, d => a ++ b ++ c ++ d

/-- The byte of a word that belongs `i` places after its address. -/
def byteOf (order : ByteOrder) (w : Word) (i : Nat) : Byte :=
  match order with
  | .little => w.extractLsb' (8 * i) 8
  | .big => w.extractLsb' (8 * (3 - i)) 8

theorem join_byteOf (order : ByteOrder) (w : Word) :
    order.join (order.byteOf w 0) (order.byteOf w 1) (order.byteOf w 2) (order.byteOf w 3) = w := by
  cases order <;> apply BitVec.eq_of_getLsbD_eq <;> intro i hi <;>
    simp only [join, byteOf, BitVec.getLsbD_append, BitVec.getLsbD_extractLsb'] <;> grind

end ByteOrder

inductive AddressError
  | misaligned (address : Word)
  | outOfRange (address : Word)
  deriving DecidableEq

def AddressError.message : AddressError → String
  | .misaligned address => "address 0x" ++ address.hexText ++ " is not word aligned"
  | .outOfRange address => "address 0x" ++ address.hexText ++ " is out of range"

/-- The bytes from address `base` upwards. -/
structure Memory where
  base : Word
  order : ByteOrder
  bytes : Array Byte
  deriving DecidableEq

namespace Memory

def init (base : Word) (size : Nat) (order : ByteOrder) : Memory :=
  ⟨base, order, Array.replicate size 0⟩

def size (m : Memory) : Nat := m.bytes.size

/-- The distance from the base to an aligned word that lies wholly inside. -/
def locate (m : Memory) (address : Word) : Except AddressError Nat :=
  if address.toNat % 4 ≠ 0 then .error (.misaligned address)
  else if address.toNat < m.base.toNat then .error (.outOfRange address)
  else if m.size < address.toNat - m.base.toNat + 4 then .error (.outOfRange address)
  else .ok (address.toNat - m.base.toNat)

/-- Bytes outside the window read as 0; `locate` never leads there. -/
def byteAt (m : Memory) (offset : Nat) : Byte := m.bytes[offset]?.getD 0

def wordAt (m : Memory) (offset : Nat) : Word :=
  m.order.join (m.byteAt offset) (m.byteAt (offset + 1)) (m.byteAt (offset + 2))
    (m.byteAt (offset + 3))

def setWordAt (m : Memory) (offset : Nat) (w : Word) : Memory :=
  { m with
    bytes := m.bytes
      |>.setIfInBounds offset (m.order.byteOf w 0)
      |>.setIfInBounds (offset + 1) (m.order.byteOf w 1)
      |>.setIfInBounds (offset + 2) (m.order.byteOf w 2)
      |>.setIfInBounds (offset + 3) (m.order.byteOf w 3) }

def read (m : Memory) (address : Word) : Except AddressError Word :=
  m.wordAt <$> m.locate address

def write (m : Memory) (address value : Word) : Outcome Memory AddressError Unit :=
  match m.locate address with
  | .error e => { result := .error e, state := m }
  | .ok offset => { result := .ok (), state := m.setWordAt offset value }

/-- Words go to consecutive addresses, modulo the address space, up to the first that fails. -/
def writeAll (m : Memory) (address : Word) : List Word → Outcome Memory AddressError Unit
  | [] => { result := .ok (), state := m }
  | w :: ws =>
    let written := m.write address w
    match written.result with
    | .error _ => written
    | .ok () => written.state.writeAll (address + 4) ws

def clear (m : Memory) : Memory := init m.base m.size m.order

/-- The addresses of the aligned words wholly inside the window, from the lowest up. The address
space ends with 32 bits even if the window does not. -/
def addresses (m : Memory) : List Word :=
  let first := (m.base.toNat + 3) / 4
  let stop := min (m.base.toNat + m.size) 0x100000000 / 4
  (List.range' first (stop - first)).map fun n => BitVec.ofNat 32 (4 * n)

def nonzero (m : Memory) : List (Word × Word) :=
  m.addresses.filterMap fun address =>
    let w := m.wordAt (address.toNat - m.base.toNat)
    if w = 0 then none else some (address, w)

def dump (m : Memory) : String :=
  "Memory \x7b base: " ++ toString m.base.toNat
    ++ ", bytes: [" ++ ", ".intercalate (m.bytes.toList.map (toString ·.toNat))
    ++ "], order: " ++ m.order.name ++ " \x7d"

theorem locate_eq_ok_iff {m : Memory} {address : Word} {offset : Nat} :
    m.locate address = .ok offset ↔
      address.toNat % 4 = 0 ∧ m.base.toNat + offset = address.toNat ∧ offset + 4 ≤ m.size := by
  unfold locate
  repeat' split
  all_goals
    simp
    omega

theorem locate_eq_error_iff {m : Memory} {address : Word} {e : AddressError} :
    m.locate address = .error e ↔
      address.toNat % 4 ≠ 0 ∧ e = .misaligned address ∨
        address.toNat % 4 = 0 ∧
          (address.toNat < m.base.toNat ∨ m.base.toNat + m.size < address.toNat + 4) ∧
          e = .outOfRange address := by
  unfold locate
  split
  · rename_i hmisaligned
    simp [hmisaligned, eq_comm]
  · rename_i haligned
    have hzero : address.toNat % 4 = 0 := by omega
    repeat' split
    all_goals
      simp only [hzero, Except.error.injEq, reduceCtorEq, eq_comm]
      grind

theorem read_ok {m : Memory} {address : Word} {offset : Nat} (h : m.locate address = .ok offset) :
    m.read address = .ok (m.wordAt offset) := by
  rw [read, h]
  rfl

theorem read_error {m : Memory} {address : Word} {e : AddressError}
    (h : m.locate address = .error e) : m.read address = .error e := by
  rw [read, h]
  rfl

theorem write_ok {m : Memory} {address : Word} {offset : Nat} (h : m.locate address = .ok offset)
    (value : Word) :
    m.write address value = { result := .ok (), state := m.setWordAt offset value } := by
  rw [write, h]

theorem write_error {m : Memory} {address : Word} {e : AddressError}
    (h : m.locate address = .error e) (value : Word) :
    m.write address value = { result := .error e, state := m } := by
  rw [write, h]

/-- A refused write leaves every byte as it was. -/
theorem state_of_write_error {m : Memory} {address value : Word} {e : AddressError}
    (h : (m.write address value).result = .error e) : (m.write address value).state = m := by
  cases hl : m.locate address with
  | error e' => rw [write_error hl]
  | ok offset =>
    rw [write_ok hl] at h
    cases h

theorem writeAll_cons_of_ok {m : Memory} {address w : Word} {offset : Nat}
    (h : m.locate address = .ok offset) (ws : List Word) :
    m.writeAll address (w :: ws) = (m.setWordAt offset w).writeAll (address + 4) ws := by
  rw [writeAll, write_ok h]

theorem writeAll_cons_of_error {m : Memory} {address w : Word} {e : AddressError}
    (h : m.locate address = .error e) (ws : List Word) :
    m.writeAll address (w :: ws) = { result := .error e, state := m } := by
  rw [writeAll, write_error h]

@[simp] theorem base_setWordAt (m : Memory) (offset : Nat) (w : Word) :
    (m.setWordAt offset w).base = m.base := by
  rw [setWordAt]

@[simp] theorem order_setWordAt (m : Memory) (offset : Nat) (w : Word) :
    (m.setWordAt offset w).order = m.order := by
  rw [setWordAt]

@[simp] theorem size_setWordAt (m : Memory) (offset : Nat) (w : Word) :
    (m.setWordAt offset w).size = m.size := by
  simp [setWordAt, size]

theorem byteAt_setWordAt (m : Memory) (offset i : Nat) (w : Word) (h : offset + 4 ≤ m.size) :
    (m.setWordAt offset w).byteAt i =
      if offset ≤ i ∧ i < offset + 4 then m.order.byteOf w (i - offset) else m.byteAt i := by
  simp only [size] at h
  simp only [setWordAt, byteAt, Array.getElem?_setIfInBounds, Array.size_setIfInBounds]
  by_cases hi : offset ≤ i ∧ i < offset + 4
  · obtain ⟨k, rfl⟩ := Nat.exists_eq_add_of_le hi.1
    have hk : k < 4 := by omega
    match k, hk with
    | 0, _ => simp [show offset < m.bytes.size by omega]
    | 1, _ => simp [show offset + 1 < m.bytes.size by omega]
    | 2, _ => simp [show offset + 2 < m.bytes.size by omega]
    | 3, _ => simp [show offset + 3 < m.bytes.size by omega]
  · rw [if_neg hi, if_neg (by omega), if_neg (by omega), if_neg (by omega), if_neg (by omega)]

theorem wordAt_congr {m m' : Memory} (order : m.order = m'.order) {offset : Nat}
    (byteAt : ∀ i < 4, m.byteAt (offset + i) = m'.byteAt (offset + i)) :
    m.wordAt offset = m'.wordAt offset := by
  have hfirst : m.byteAt offset = m'.byteAt offset := byteAt 0 (by omega)
  rw [wordAt, wordAt, order, hfirst, byteAt 1 (by omega), byteAt 2 (by omega), byteAt 3 (by omega)]

theorem wordAt_setWordAt (m : Memory) (offset : Nat) (w : Word) (h : offset + 4 ≤ m.size) :
    (m.setWordAt offset w).wordAt offset = w := by
  simp only [wordAt, byteAt_setWordAt m _ _ w h]
  simp [setWordAt, ByteOrder.join_byteOf]

theorem wordAt_setWordAt_of_disjoint (m : Memory) (offset other : Nat) (w : Word)
    (h : offset + 4 ≤ m.size) (hd : other + 4 ≤ offset ∨ offset + 4 ≤ other) :
    (m.setWordAt offset w).wordAt other = m.wordAt other := by
  refine wordAt_congr (order_setWordAt m offset w) fun i hi => ?_
  rw [byteAt_setWordAt m _ _ w h, if_neg (by omega)]

end Memory

end WordMachine
