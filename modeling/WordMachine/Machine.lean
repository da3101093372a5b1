import WordMachine.Memory
import WordMachine.Registers

namespace WordMachine

structure Config where
  zero : ZeroPolicy := .hardwired
  base : Word := 0x10010000
  size : Nat := 4096
  order : ByteOrder := .little
  deriving DecidableEq

structure Machine where
  registers : Registers
  memory : Memory
  deriving DecidableEq

namespace Machine

def ofConfig (c : Config) : Machine :=
  ⟨.init c.zero, .init c.base c.size c.order⟩

def reset (m : Machine) : Machine := ⟨m.registers.reset, m.memory.clear⟩

/-- Puts words into memory one after the other and reports once all of them are in. Those before
one that fails stay. -/
def load (m : Machine) (address : Word) (ws : List Word) : Outcome Machine AddressError Unit :=
  let written := m.memory.writeAll address ws
  let state := { m with memory := written.state }
  match written.result with
  | .error e => { result := .error e, state }
  | .ok () => { result := .ok (), state, log := [.wordsLoaded ws.length address] }

theorem load_result (m : Machine) (address : Word) (ws : List Word) :
    (m.load address ws).result = (m.memory.writeAll address ws).result := by
  cases h : (m.memory.writeAll address ws).result <;> simp only [load, h]

theorem load_state (m : Machine) (address : Word) (ws : List Word) :
    (m.load address ws).state = { m with memory := (m.memory.writeAll address ws).state } := by
  cases h : (m.memory.writeAll address ws).result <;> simp only [load, h]

end Machine

end WordMachine
