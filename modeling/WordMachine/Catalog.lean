import WordMachine.Event
import WordMachine.Instruction

namespace WordMachine

structure Catalog where
  name : String
  description : String
  instructions : List Instruction := []
  deriving DecidableEq

inductive CatalogError
  | definition (cause : DefinitionError)
  | duplicateEncoding (mnemonic existing : String)
  deriving DecidableEq

def CatalogError.message : CatalogError → String
  | .definition cause => cause.message
  | .duplicateEncoding mnemonic existing => s!"encoding of {mnemonic} collides with {existing}"

namespace Catalog

def size (c : Catalog) : Nat := c.instructions.length

/-- The first instruction whose encoding shares a word with the given one. -/
def collision? (c : Catalog) (i : Instruction) : Option Instruction :=
  c.instructions.find? (·.template.overlaps i.template)

/-- Adds an instruction at the end, unless its encoding collides. -/
def register (c : Catalog) (i : Instruction) : Outcome Catalog CatalogError Unit :=
  match c.collision? i with
  | some existing =>
    { result := .error (.duplicateEncoding i.mnemonic existing.mnemonic), state := c }
  | none => { result := .ok (), state := { c with instructions := c.instructions ++ [i] } }

/-- An error of the definition itself is found before any collision. -/
def define (c : Catalog) (d : Definition) : Outcome Catalog CatalogError Unit :=
  match d.compile with
  | .error e => { result := .error (.definition e), state := c }
  | .ok i => c.register i

/-- Stops at the first definition that is refused; those before it stay. -/
def defineAll (c : Catalog) : List Definition → Outcome Catalog CatalogError Unit
  | [] => { result := .ok (), state := c }
  | d :: ds =>
    let defined := c.define d
    match defined.result with
    | .error _ => defined
    | .ok () => defined.state.defineAll ds

def lookup (c : Catalog) (word : Word) : Option Instruction :=
  c.instructions.find? (·.template.accepts word)

/-- The first instruction of that mnemonic, with the case of ASCII letters ignored. -/
def get? (c : Catalog) (mnemonic : String) : Option Instruction :=
  c.instructions.find? (·.mnemonic.toLower == mnemonic.toLower)

variable {c : Catalog} {i : Instruction}

theorem collision?_eq_none_iff :
    c.collision? i = none ↔ ∀ e ∈ c.instructions, e.template.overlaps i.template = false := by
  simp [collision?]

theorem collision?_eq_some_iff {existing : Instruction} :
    c.collision? i = some existing ↔
      existing.template.overlaps i.template = true ∧
        ∃ before after, c.instructions = before ++ existing :: after ∧
          ∀ a ∈ before, a.template.overlaps i.template = false := by
  simp only [collision?, List.find?_eq_some_iff_append, Bool.not_eq_true']

theorem register_of_apart
    (apart : ∀ e ∈ c.instructions, e.template.overlaps i.template = false) :
    c.register i =
      { result := .ok (), state := { c with instructions := c.instructions ++ [i] } } := by
  rw [register, collision?_eq_none_iff.mpr apart]

theorem register_of_collision {existing : Instruction} (h : c.collision? i = some existing) :
    c.register i =
      { result := .error (.duplicateEncoding i.mnemonic existing.mnemonic), state := c } := by
  rw [register, h]

theorem register_ok_iff :
    (c.register i).result = .ok () ↔
      ∀ e ∈ c.instructions, e.template.overlaps i.template = false := by
  constructor
  · intro h
    cases hc : c.collision? i with
    | none => exact collision?_eq_none_iff.mp hc
    | some existing =>
      rw [register_of_collision hc] at h
      cases h
  · intro apart
    rw [register_of_apart apart]

/-- A refusal leaves the catalog as it was. -/
theorem state_of_register_error {e : CatalogError} (h : (c.register i).result = .error e) :
    (c.register i).state = c := by
  cases hc : c.collision? i with
  | none =>
    rw [register_of_apart (collision?_eq_none_iff.mp hc)] at h
    cases h
  | some existing => rw [register_of_collision hc]

end Catalog

end WordMachine
