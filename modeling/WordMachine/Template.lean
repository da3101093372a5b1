import WordMachine.Template.Field

namespace WordMachine

inductive Slot
  | first
  | second
  | third
  deriving DecidableEq

namespace Slot

def all : List Slot := [.first, .second, .third]

def index : Slot → Nat
  | .first => 0
  | .second => 1
  | .third => 2

/-- The letter that stands for the operand in a written template. -/
def letter : Slot → Char
  | .first => 'f'
  | .second => 's'
  | .third => 't'

theorem index_inj {slot slot' : Slot} : slot.index = slot'.index ↔ slot = slot' := by
  cases slot <;> cases slot' <;> decide

theorem exists_index {k : Nat} (h : k < 3) : ∃ slot : Slot, slot.index = k := by
  match k with
  | 0 => exact ⟨.first, rfl⟩
  | 1 => exact ⟨.second, rfl⟩
  | 2 => exact ⟨.third, rfl⟩

end Slot

/-- Fixed bits are set in `mask` and carry their value in `value`. The fields stand in the order
of `Slot.index`. -/
structure Template where
  mask : Word
  value : Word
  fields : Vector (Option Field) 3
  deriving DecidableEq

namespace Template

/-- The field of the operand at an index. No operand has an index beyond the last slot. -/
def field? (t : Template) (index : Nat) : Option Field := t.fields[index]?.join

def fieldCount (t : Template) : Nat := t.fields.toList.countP Option.isSome

/-- The word has every fixed bit of the template. -/
def accepts (t : Template) (word : Word) : Bool := word &&& t.mask == t.value

/-- No bit is fixed to 0 by one template and to 1 by the other, so some word matches both. -/
def overlaps (a b : Template) : Bool := (a.value ^^^ b.value) &&& a.mask &&& b.mask == 0

/-- Operands beyond the fields are ignored, and so is an operand whose slot has no field. -/
def encode (t : Template) (operands : List Word) : Word :=
  (t.fields.toList.zip operands).foldl
    (fun word (field, operand) => word ||| (field.map (·.pack operand)).getD 0) t.value

end Template

end WordMachine
