import WordMachine.Main
import WordMachine.Proofs.ByteOrder
import WordMachine.Proofs.Concatenation
import WordMachine.Proofs.InstructionTable
import WordMachine.Proofs.LastWritten
import WordMachine.Proofs.OperandFields
import WordMachine.Proofs.Redecoding
import WordMachine.Proofs.SmallStep
import WordMachine.Proofs.StepLimit
import WordMachine.Proofs.UniqueReading
import WordMachine.Proofs.ZeroRegister
import WordMachine.Proofs.LargerMemory
import WordMachine.Proofs.RegistrationOrder
import WordMachine.Proofs.Transcript
import WordMachine.Proofs.Grammar
import WordMachine.Proofs.Rendering
import WordMachine.Proofs.MatchedWords
import WordMachine.Proofs.FirstFailure
import WordMachine.Proofs.LoadedWords
import WordMachine.Proofs.Registration
import WordMachine.Proofs.Filling
import WordMachine.Proofs.Footprint
import WordMachine.Proofs.Noninterference
import WordMachine.Proofs.Commutation
import WordMachine.Proofs.Displacement
import WordMachine.Proofs.Scanning
import WordMachine.Proofs.FaultFree
