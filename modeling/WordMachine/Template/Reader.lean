import WordMachine.Template.Symbol
import WordMachine.Text

namespace WordMachine

inductive TemplateError
  | length (found : Nat)
  | character (c : Char)
  | splitField (slot : Slot)
  deriving DecidableEq

def TemplateError.message : TemplateError → String
  | .length found => s!"template has {found} significant characters, expected 32"
  | .character c => "unexpected character " ++ Text.quoted c ++ " in template"
  | .splitField slot => "field " ++ Text.quoted slot.letter ++ " is not contiguous"

namespace Template

/-- The characters that count. -/
def significant (text : String) : List Char := text.toList.filter (!Text.isBlank ·)

/-- Fails at the first character that is no symbol. -/
def readSymbols : List Char → Except TemplateError (List Symbol)
  | [] => .ok []
  | c :: cs =>
    match Symbol.ofChar? c with
    | none => .error (.character c)
    | some symbol => (symbol :: ·) <$> readSymbols cs

/-- The one run of an operand's symbols is its field; symbols to the right of the run are the
lower bits. -/
def fieldOf (slot : Slot) (symbols : List Symbol) : Except TemplateError (Option Field) :=
  let fromRun := symbols.dropWhile (· != .operand slot)
  let run := fromRun.takeWhile (· == .operand slot)
  let lower := fromRun.dropWhile (· == .operand slot)
  if .operand slot ∈ lower then .error (.splitField slot)
  else if run = [] then .ok none
  else .ok (some ⟨lower.length, run.length⟩)

/-- The word whose bits, from the highest down, say which symbols have the property. -/
def bitsWhere (p : Symbol → Bool) (symbols : List Symbol) : Word :=
  (BitVec.ofBoolListBE (symbols.map p)).setWidth 32

/-- Fails at the first operand, in slot order, whose symbols are split. -/
def ofSymbols (symbols : List Symbol) : Except TemplateError Template := do
  let first ← fieldOf .first symbols
  let second ← fieldOf .second symbols
  let third ← fieldOf .third symbols
  return {
    mask := bitsWhere Symbol.isBit symbols
    value := bitsWhere Symbol.isOne symbols
    fields := #v[first, second, third] }

/-- A wrong length is found before a wrong character, and both before a split field. -/
def read (text : String) : Except TemplateError Template := do
  let chars := significant text
  if chars.length ≠ 32 then
    throw (.length chars.length)
  ofSymbols (← readSymbols chars)

end Template

end WordMachine
