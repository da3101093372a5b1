import Mathlib.Algebra.Group.Int.Defs
import Mathlib.Algebra.Group.Nat.Defs
import WordMachine.Word

namespace WordMachine

/-- Why there is no value. -/
inductive Fault
  | overflow
  | division
  | negativeRoot
  | index (position length : Nat)
  | slice (start stop length : Nat)
  deriving DecidableEq

abbrev Strict (α : Type) := Except Fault α

namespace Strict

variable {n : Nat} {a b : BitVec n}

def add (a b : BitVec n) : Strict (BitVec n) :=
  if a.uaddOverflow b then .error .overflow else .ok (a + b)

def addSigned (a b : BitVec n) : Strict (BitVec n) :=
  if a.saddOverflow b then .error .overflow else .ok (a + b)

def sub (a b : BitVec n) : Strict (BitVec n) :=
  if a.usubOverflow b then .error .overflow else .ok (a - b)

/-- Bits may be lost at the upper end, but the number has to have as many places. -/
def shiftLeft (a : BitVec n) (places : Nat) : Strict (BitVec n) :=
  if places < n then .ok (a <<< places) else .error .overflow

def rem (a b : BitVec n) : Strict (BitVec n) :=
  if b = 0 then .error .division else .ok (a % b)

/-- The remainder has the sign of the dividend. The quotient of the least number by -1 is too
large. -/
def remSigned (a b : BitVec n) : Strict (BitVec n) :=
  if b = 0 then .error .division
  else if a = BitVec.intMin n ∧ b = -1 then .error .overflow
  else .ok (a.srem b)

def index {α : Type} (xs : List α) (position : Nat) : Strict α :=
  match xs[position]? with
  | some x => .ok x
  | none => .error (.index position xs.length)

def slice (length start stop : Nat) : Strict Unit :=
  if start ≤ stop ∧ stop ≤ length then .ok () else .error (.slice start stop length)

theorem bind_ok {α β : Type} {x : Strict α} {a : α} (h : x = .ok a) (next : α → Strict β) :
    x >>= next = next a := by
  rw [h]
  rfl

theorem add_ok (h : a.toNat + b.toNat < 2 ^ n) : add a b = .ok (a + b) := by
  rw [add, if_neg]
  simpa [BitVec.uaddOverflow] using h

theorem addSigned_ok (low : -2 ^ (n - 1) ≤ a.toInt + b.toInt)
    (high : a.toInt + b.toInt < 2 ^ (n - 1)) : addSigned a b = .ok (a + b) := by
  rw [addSigned, if_neg]
  simpa [BitVec.saddOverflow] using ⟨high, low⟩

theorem sub_ok (h : b.toNat ≤ a.toNat) : sub a b = .ok (a - b) := by
  rw [sub, if_neg]
  simpa [BitVec.usubOverflow] using h

theorem toNat_ofNat {k : Nat} (h : k < 2 ^ n) : (BitVec.ofNat n k).toNat = k := by
  rw [BitVec.toNat_ofNat, Nat.mod_eq_of_lt h]

theorem add_ofNat {k l : Nat} (h : k + l < 2 ^ n) :
    add (BitVec.ofNat n k) (BitVec.ofNat n l) = .ok (BitVec.ofNat n (k + l)) := by
  rw [BitVec.ofNat_add]
  refine add_ok ?_
  rwa [toNat_ofNat (by omega), toNat_ofNat (by omega)]

theorem sub_ofNat {k l : Nat} (hl : l ≤ k) (hk : k < 2 ^ n) :
    sub (BitVec.ofNat n k) (BitVec.ofNat n l) = .ok (BitVec.ofNat n (k - l)) := by
  have hle : (BitVec.ofNat n l).toNat ≤ (BitVec.ofNat n k).toNat := by
    rwa [toNat_ofNat (by omega), toNat_ofNat hk]
  rw [sub_ok hle, ← BitVec.ofNat_sub_ofNat_of_le k l (by omega) hl]

theorem shiftLeft_ok {places : Nat} (h : places < n) (a : BitVec n) :
    shiftLeft a places = .ok (a <<< places) :=
  if_pos h

theorem rem_ok (h : b ≠ 0) (a : BitVec n) : rem a b = .ok (a % b) :=
  if_neg h

theorem remSigned_ok (hb : b ≠ 0) (ha : a ≠ BitVec.intMin n) : remSigned a b = .ok (a.srem b) := by
  rw [remSigned, if_neg hb, if_neg (fun h => ha h.1)]

theorem index_ok {α : Type} {xs : List α} {position : Nat} {x : α} (h : xs[position]? = some x) :
    index xs position = .ok x := by
  rw [index, h]

theorem slice_ok {length start stop : Nat} (order : start ≤ stop) (inside : stop ≤ length) :
    slice length start stop = .ok () :=
  if_pos ⟨order, inside⟩

end Strict

end WordMachine
