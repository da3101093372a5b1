import WordMachine.Event

namespace WordMachine

/-- What becomes of writes to register 0: it always reads as 0, or is like any other register. -/
inductive ZeroPolicy
  | hardwired
  | writable
  deriving DecidableEq

abbrev Register := Fin 32

structure InvalidRegister where
  index : Word
  deriving DecidableEq

def InvalidRegister.message (e : InvalidRegister) : String :=
  "invalid register index " ++ e.index.signedText

/-- A negative index is a large unsigned word, so one comparison settles both ends. -/
def Register.ofIndex (index : Word) : Except InvalidRegister Register :=
  if h : index.toNat < 32 then .ok ⟨index.toNat, h⟩ else .error ⟨index⟩

theorem Register.ofIndex_eq_ok_iff {index : Word} {r : Register} :
    Register.ofIndex index = .ok r ↔ index.toNat = r.val := by
  unfold Register.ofIndex
  split
  · simp [Fin.ext_iff]
  · have := r.isLt
    simp
    omega

theorem Register.ofIndex_eq_error_iff {index : Word} {e : InvalidRegister} :
    Register.ofIndex index = .error e ↔
      (index.toInt < 0 ∨ 31 < index.toInt) ∧ e = ⟨index⟩ := by
  have hlt := index.isLt
  rw [BitVec.toInt_eq_toNat_cond]
  unfold Register.ofIndex
  split
  · simp only [reduceCtorEq, false_iff]
    omega
  · constructor
    · intro h
      exact ⟨by omega, (Except.error.inj h).symm⟩
    · rintro ⟨-, rfl⟩
      rfl

structure Registers where
  zero : ZeroPolicy
  values : Vector Word 32
  deriving DecidableEq

namespace Registers

def init (zero : ZeroPolicy) : Registers := ⟨zero, Vector.replicate 32 0⟩

def get (rs : Registers) (r : Register) : Word := rs.values[r]

/-- Writes to this register are lost. -/
def discards (rs : Registers) (r : Register) : Bool := r == 0 && rs.zero == .hardwired

def set (rs : Registers) (r : Register) (value : Word) : Registers :=
  if rs.discards r then rs else { rs with values := rs.values.set r value }

/-- A lost write is worth a warning unless it would have changed nothing. -/
def setEvents (rs : Registers) (r : Register) (value : Word) : List Event :=
  if rs.discards r && value != 0 then [.writeDiscarded value] else []

def read (rs : Registers) (index : Word) : Except InvalidRegister Word :=
  rs.get <$> Register.ofIndex index

def write (rs : Registers) (index value : Word) : Outcome Registers InvalidRegister Unit :=
  match Register.ofIndex index with
  | .error e => { result := .error e, state := rs }
  | .ok r => { result := .ok (), state := rs.set r value, log := rs.setEvents r value }

def reset (rs : Registers) : Registers := init rs.zero

def nonzero (rs : Registers) : List (Register × Word) :=
  (List.finRange 32).filterMap fun r => if rs.get r = 0 then none else some (r, rs.get r)

@[simp] theorem get_init (zero : ZeroPolicy) (r : Register) : (init zero).get r = 0 := by
  simp [init, get]

@[simp] theorem zero_set (rs : Registers) (r : Register) (value : Word) :
    (rs.set r value).zero = rs.zero := by
  unfold set
  split <;> rfl

theorem get_set (rs : Registers) (r s : Register) (value : Word) :
    (rs.set r value).get s = if s = r ∧ rs.discards r = false then value else rs.get s := by
  unfold set
  cases rs.discards r
  · simp [get, Vector.getElem_set, Fin.ext_iff, eq_comm]
  · simp

end Registers

end WordMachine
