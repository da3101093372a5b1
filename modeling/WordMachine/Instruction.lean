import WordMachine.Operation
import WordMachine.Template.Reader

namespace WordMachine

/-- What an author writes. It becomes an instruction once its encoding has been read and found to
have one field per operand. -/
structure Definition where
  operation : Operation
  mnemonic : String
  usage : String
  description : String
  format : Format
  encoding : String
  deriving DecidableEq

structure Instruction extends Definition where
  template : Template
  deriving DecidableEq

inductive DefinitionError
  | template (mnemonic : String) (cause : TemplateError)
  | fieldCount (mnemonic : String) (fields arity : Nat)
  deriving DecidableEq

def DefinitionError.message : DefinitionError → String
  | .template mnemonic cause => s!"bad template for {mnemonic}: " ++ cause.message
  | .fieldCount mnemonic fields arity =>
    s!"{mnemonic} template has {fields} operand fields, expected {arity}"

/-- A bad template is found before a wrong number of fields. -/
def Definition.compile (d : Definition) : Except DefinitionError Instruction := do
  let template ← (Template.read d.encoding).mapError (.template d.mnemonic)
  if template.fieldCount ≠ d.operation.arity then
    throw (.fieldCount d.mnemonic template.fieldCount d.operation.arity)
  return { d with template }

theorem except_bind_ok {ε α β : Type} {x : Except ε α} {f : α → Except ε β} {b : β} :
    (x >>= f) = .ok b ↔ ∃ a, x = .ok a ∧ f a = .ok b := by
  cases x <;> simp [bind, Except.bind]

theorem except_bind_error {ε α β : Type} {x : Except ε α} {f : α → Except ε β} {e : ε} :
    (x >>= f) = .error e ↔ x = .error e ∨ ∃ a, x = .ok a ∧ f a = .error e := by
  cases x <;> simp [bind, Except.bind]

@[simp] theorem mapError_ok {ε ε' α : Type} (f : ε → ε') (a : α) :
    (Except.ok a : Except ε α).mapError f = .ok a := rfl

@[simp] theorem mapError_error {ε ε' α : Type} (f : ε → ε') (e : ε) :
    (Except.error e : Except ε α).mapError f = .error (f e) := rfl

theorem mapError_eq_ok_iff {ε ε' α : Type} {x : Except ε α} {f : ε → ε'} {a : α} :
    x.mapError f = .ok a ↔ x = .ok a := by
  cases x <;> simp

theorem mapError_eq_error_iff {ε ε' α : Type} {x : Except ε α} {f : ε → ε'} {e' : ε'} :
    x.mapError f = .error e' ↔ ∃ e, x = .error e ∧ f e = e' := by
  cases x <;> simp

structure ArityError where
  mnemonic : String
  expected : Nat
  found : Nat
  deriving DecidableEq

def ArityError.message (e : ArityError) : String :=
  s!"{e.mnemonic} takes {e.expected} operands, got {e.found}"

namespace Instruction

def arity (i : Instruction) : Nat := i.operation.arity

def arityError (i : Instruction) (operands : List Word) : ArityError :=
  ⟨i.mnemonic, i.arity, operands.length⟩

/-- Each operand is cut to the width of its field. -/
def encode (i : Instruction) (operands : List Word) : Except ArityError Word :=
  if operands.length = i.arity then .ok (i.template.encode operands)
  else .error (i.arityError operands)

/-- The operands found in an encoded word, without their lost upper bits. -/
def decode (i : Instruction) (word : Word) : List Word :=
  (i.template.fields.toList.take i.arity).map fun field => (field.map (·.extract word)).getD 0

end Instruction

end WordMachine
