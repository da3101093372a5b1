import WordMachine.Catalog.Standard
import WordMachine.Program

namespace WordMachine.Demo

/-- The text at the left of a column. Longer text pushes the next column aside. -/
def padded (width : Nat) (text : String) : String :=
  text.pushn ' ' (width - text.length)

def catalogLines (c : Catalog) : List String :=
  (c.name ++ ": " ++ c.description) :: c.instructions.map fun i =>
    "  " ++ padded 8 i.mnemonic ++ " " ++ padded 38 i.encoding ++ " " ++ i.description

/-- Mnemonics with operands. One that is not in the catalog is left out. -/
def assemble (c : Catalog) (source : List (String × List Word)) : Program :=
  (source.filterMap fun (mnemonic, operands) => (c.get? mnemonic).map (⟨·, operands⟩)).toArray

def source : List (String × List Word) :=
  [ ("GRUB", [1, 10]), ("GRUB", [2, 3]), ("ADD", [3, 1, 2]), ("TRIPLED", [4, 3]),
    ("DEEP", [5, 4]), ("PRIM", [6, 3]) ]

def statementLine (s : Statement) : String :=
  let word := (s.instruction.encode s.operands).toOption.getD 0
  "  0x" ++ word.hexText ++ "  " ++ s.instruction.mnemonic ++ " " ++ Word.listText s.operands

def registerLine (r : Register) (value : Word) : String :=
  "  $" ++ padded 2 (toString r.val) ++ " = " ++ value.signedText ++ " (0x" ++ value.hexText ++ ")"

/-- What is printed, and the error that cut it short, if any. -/
structure Report where
  lines : List String
  failure : Option ExecutionError

def report : Report :=
  let program := assemble .standard source
  let run := program.run (.ofConfig {}) 1000
  let opening := catalogLines .standard
  match run.result with
  | .error e => ⟨opening, some e⟩
  | .ok steps =>
    ⟨opening ++ [s!"{steps} instructions executed"] ++ program.toList.map statementLine
      ++ run.state.registers.nonzero.map fun (r, value) => registerLine r value, none⟩

def Report.exitCode (r : Report) : Nat := if r.failure.isSome then 1 else 0

end WordMachine.Demo
