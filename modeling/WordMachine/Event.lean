import WordMachine.Word

namespace WordMachine

inductive Event
  | executed (mnemonic : String) (operands : List Word)
  | branchTaken (target : Word)
  | writeDiscarded (value : Word)
  | wordsLoaded (count : Nat) (address : Word)
  | catalogFilled (name : String) (size : Nat)
  deriving DecidableEq

inductive Level
  | trace
  | debug
  | warn
  deriving DecidableEq

def Level.name : Level → String
  | .trace => "TRACE"
  | .debug => "DEBUG"
  | .warn => "WARN"

namespace Event

def level : Event → Level
  | .executed .. => .trace
  | .branchTaken .. | .wordsLoaded .. | .catalogFilled .. => .debug
  | .writeDiscarded .. => .warn

def message : Event → String
  | .executed mnemonic operands => mnemonic ++ " " ++ Word.listText operands
  | .branchTaken target => "BEQ taken, target " ++ target.signedText
  | .writeDiscarded value =>
    "discarding write of " ++ value.signedText ++ " to hardwired register 0"
  | .wordsLoaded count address => s!"loaded {count} words at 0x" ++ address.hexText
  | .catalogFilled name size => s!"{name}: {size} instructions registered"

def line (e : Event) : String := e.level.name ++ " " ++ e.message

end Event

/-- What an operation answers, the state after it, and what it reported on the way. One that fails
leaves a state behind as well. -/
structure Outcome (σ ε α : Type) where
  result : Except ε α
  state : σ
  log : List Event := []

end WordMachine
