import WordMachine.Word

namespace WordMachine

/-- The bits `lo, …, lo + width - 1` of a word, which hold one operand. -/
structure Field where
  lo : Nat
  width : Nat
  deriving DecidableEq

namespace Field

/-- The operand bits that fit the field. A field wider than a word takes them all. -/
def mask (f : Field) : Word := (BitVec.allOnes f.width).setWidth 32

/-- The operand moved to its place. Bits that do not fit are dropped. -/
def pack (f : Field) (operand : Word) : Word := (operand &&& f.mask) <<< f.lo

/-- The operand bits found in an encoded word, without a sign. -/
def extract (f : Field) (word : Word) : Word := (word >>> f.lo) &&& f.mask

def covers (f : Field) (bit : Nat) : Bool := f.lo ≤ bit && bit < f.lo + f.width

theorem getLsbD_mask (f : Field) (i : Nat) :
    f.mask.getLsbD i = decide (i < 32 ∧ i < f.width) := by
  simp [mask]

theorem getLsbD_pack (f : Field) (operand : Word) (i : Nat) :
    (f.pack operand).getLsbD i = (decide (i < 32) && f.covers i && operand.getLsbD (i - f.lo)) := by
  simp only [pack, covers, BitVec.getLsbD_shiftLeft, BitVec.getLsbD_and, getLsbD_mask]
  grind

theorem getLsbD_extract (f : Field) (word : Word) (i : Nat) :
    (f.extract word).getLsbD i = (decide (i < f.width) && word.getLsbD (f.lo + i)) := by
  simp only [extract, BitVec.getLsbD_ushiftRight, BitVec.getLsbD_and, getLsbD_mask]
  grind

end Field

end WordMachine
