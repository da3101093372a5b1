import WordMachine.Template

namespace WordMachine

/-- One significant character of a template: a fixed bit, or one bit of an operand. -/
inductive Symbol
  | bit (one : Bool)
  | operand (slot : Slot)
  deriving DecidableEq

namespace Symbol

def toChar : Symbol → Char
  | .bit false => '0'
  | .bit true => '1'
  | .operand slot => slot.letter

def ofChar? : Char → Option Symbol
  | '0' => some (.bit false)
  | '1' => some (.bit true)
  | 'f' => some (.operand .first)
  | 's' => some (.operand .second)
  | 't' => some (.operand .third)
  | _ => none

def isBit : Symbol → Bool
  | .bit _ => true
  | .operand _ => false

def isOne : Symbol → Bool
  | .bit one => one
  | .operand _ => false

@[simp] theorem toChar_operand (slot : Slot) : (operand slot).toChar = slot.letter := rfl

theorem ofChar?_toChar (s : Symbol) : ofChar? s.toChar = some s := by
  rcases s with (_ | _) | (_ | _ | _) <;> rfl

theorem toChar_of_ofChar? {c : Char} {s : Symbol} (h : ofChar? c = some s) : s.toChar = c := by
  unfold ofChar? at h
  split at h
  all_goals
    cases h
  all_goals rfl

theorem toChar_inj {s s' : Symbol} : s.toChar = s'.toChar ↔ s = s' := by
  constructor
  · intro h
    have hs := ofChar?_toChar s
    rw [h, ofChar?_toChar] at hs
    exact (Option.some.inj hs).symm
  · rintro rfl
    rfl

end Symbol

namespace Template

/-- What the template says about one bit. Nothing is said about a bit that is neither fixed nor
in a field. -/
def symbolAt? (t : Template) (bit : Nat) : Option Symbol :=
  if t.mask.getLsbD bit then some (.bit (t.value.getLsbD bit))
  else
    (Slot.all.find? fun slot => (t.field? slot.index).any (·.covers bit)).map .operand

def symbols? (t : Template) : Option (List Symbol) := (List.range 32).reverse.mapM t.symbolAt?

def render? (t : Template) : Option (List Char) := t.symbols?.map (·.map Symbol.toChar)

end Template

end WordMachine
