import WordMachine.Catalog

namespace WordMachine

namespace Catalog

def standardDefinitions : List Definition :=
  [ { operation := .add, mnemonic := "ADD", usage := "ADD $t0,$t1,$t2"
      description := "Add: rd = rs + rt.", format := .r
      encoding := "000000 sssss ttttt fffff 00000 000001" },
    { operation := .sub, mnemonic := "SUB", usage := "SUB $t0,$t1,$t2"
      description := "Subtract: rd = rs - rt.", format := .r
      encoding := "000000 sssss ttttt fffff 00000 000010" },
    { operation := .and, mnemonic := "AND", usage := "AND $t0,$t1,$t2"
      description := "Bitwise AND: rd = rs & rt.", format := .r
      encoding := "000000 sssss ttttt fffff 00000 000011" },
    { operation := .or, mnemonic := "OR", usage := "OR $t0,$t1,$t2"
      description := "Bitwise OR: rd = rs | rt.", format := .r
      encoding := "000000 sssss ttttt fffff 00000 000100" },
    { operation := .xor, mnemonic := "XOR", usage := "XOR $t0,$t1,$t2"
      description := "Bitwise XOR: rd = rs ^ rt.", format := .r
      encoding := "000000 sssss ttttt fffff 00000 000101" },
    { operation := .addi, mnemonic := "ADDI", usage := "ADDI $t0,$t1,100"
      description := "Add immediate: rt = rs + imm (sign-extended).", format := .i
      encoding := "000001 sssss fffff tttttttttttttttt" },
    { operation := .ld, mnemonic := "LD", usage := "LD $t0,100($t1)"
      description := "Load word: rt = MEM[rs + offset].", format := .i
      encoding := "000010 sssss fffff tttttttttttttttt" },
    { operation := .st, mnemonic := "ST", usage := "ST $t0,100($t1)"
      description := "Store word: MEM[rs + offset] = rt.", format := .i
      encoding := "000011 sssss fffff tttttttttttttttt" },
    { operation := .beq, mnemonic := "BEQ", usage := "BEQ $t0,$t1,100"
      description := "Branch if equal: if (rs == rt) branch to label/offset.", format := .iBranch
      encoding := "000100 sssss ttttt ffffffffffffffff" },
    { operation := .grub, mnemonic := "GRUB", usage := "GRUB $t0,100"
      description := "GRUB: load the low 8 bits of the immediate into rt.", format := .i
      encoding := "010000 fffff 00000 ssssssssssssssss" },
    { operation := .tripled, mnemonic := "TRIPLED", usage := "TRIPLED $t0,$t1"
      description := "TRIPLED: rd = 3 * rs.", format := .r
      encoding := "000000 sssss 00000 fffff 00000 100000" },
    { operation := .loaded, mnemonic := "LOADED", usage := "LOADED $t0,100($t1)"
      description := "LOADED: rt = MEM[rs + offset] with MSB set (0x80000000).", format := .i
      encoding := "010001 sssss fffff tttttttttttttttt" },
    { operation := .deep, mnemonic := "DEEP", usage := "DEEP $t0,$t1"
      description := "DEEP: bit-reverse rs into rd.", format := .r
      encoding := "000000 sssss 00000 fffff 00000 100001" },
    { operation := .prim, mnemonic := "PRIM", usage := "PRIM $t0,$t1"
      description := "PRIM: rd = 1 if rs is prime, else 0.", format := .r
      encoding := "000000 sssss 00000 fffff 00000 100010" } ]

/-- Adds the standard instructions to a catalog and reports once all of them are in. -/
def addStandard (c : Catalog) : Outcome Catalog CatalogError Unit :=
  let filled := c.defineAll standardDefinitions
  match filled.result with
  | .error e => { result := .error e, state := filled.state }
  | .ok () =>
    { result := .ok (), state := filled.state
      log := [.catalogFilled filled.state.name filled.state.size] }

def standard : Catalog :=
  (addStandard
    { name := "Rust Assembly"
      description := "Rust (the game) flavored instructions on top of MIPS-like semantics." }).state

end Catalog

namespace Instruction

/-- This entry and those below have the templates that their encodings are read as. -/
def addi : Instruction := ⟨Catalog.standardDefinitions[5],
  ⟨0xfc000000, 0x04000000, #v[some ⟨16, 5⟩, some ⟨21, 5⟩, some ⟨0, 16⟩]⟩⟩

def ld : Instruction := ⟨Catalog.standardDefinitions[6],
  ⟨0xfc000000, 0x08000000, #v[some ⟨16, 5⟩, some ⟨21, 5⟩, some ⟨0, 16⟩]⟩⟩

def st : Instruction := ⟨Catalog.standardDefinitions[7],
  ⟨0xfc000000, 0x0c000000, #v[some ⟨16, 5⟩, some ⟨21, 5⟩, some ⟨0, 16⟩]⟩⟩

def beq : Instruction := ⟨Catalog.standardDefinitions[8],
  ⟨0xfc000000, 0x10000000, #v[some ⟨0, 16⟩, some ⟨21, 5⟩, some ⟨16, 5⟩]⟩⟩

def grub : Instruction := ⟨Catalog.standardDefinitions[9],
  ⟨0xfc1f0000, 0x40000000, #v[some ⟨21, 5⟩, some ⟨0, 16⟩, none]⟩⟩

end Instruction

end WordMachine
