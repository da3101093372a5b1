namespace WordMachine

/-- Addresses and encodings are read without a sign, register contents and operands as two's
complement. -/
abbrev Word := BitVec 32

abbrev Byte := BitVec 8

namespace Word

/-- The low half keeps its value as a signed number; the high half is lost. -/
def signExtendLow (w : Word) : Word :=
  (w.setWidth 16).signExtend 32

def hexText (w : Word) : String := w.toHex

def signedText (w : Word) : String := toString w.toInt

/-- Signed values in brackets, as operand lists are written. -/
def listText (ws : List Word) : String :=
  "[" ++ ", ".intercalate (ws.map signedText) ++ "]"

end Word

/-- No odd candidate from `d` up to the square root of `n` divides `n`. -/
def noOddDivisorFrom (n d : Nat) : Bool :=
  if d * d ≤ n then n % d != 0 && noOddDivisorFrom n (d + 2) else true
termination_by n + 1 - d
decreasing_by
  have := Nat.le_mul_self d
  omega

/-- Two is the only even prime, so beyond three only odd candidates are tried. -/
def primeByTrial (n : Nat) : Bool :=
  if n ≤ 1 then false
  else if n ≤ 3 then true
  else if n % 2 = 0 then false
  else noOddDivisorFrom n 3

/-- A word with its sign bit set is negative, hence not prime. -/
def Word.isPrime (w : Word) : Bool := primeByTrial w.toInt.toNat

end WordMachine
