import AccumulatorMachine.Layout
import AccumulatorMachine.Main
import AccumulatorMachine.Simulator.Operation
import AccumulatorMachine.Proofs.Cache.Coherence
import AccumulatorMachine.Proofs.Cache.History
import AccumulatorMachine.Proofs.Simulator.Coherence
import AccumulatorMachine.Proofs.Machine.Guard
import AccumulatorMachine.Proofs.Machine.Plain
import AccumulatorMachine.Proofs.Machine.Refinement
import AccumulatorMachine.Proofs.Memory
import AccumulatorMachine.Proofs.Line
import AccumulatorMachine.Proofs.Instruction
import AccumulatorMachine.Proofs.Assembly
import AccumulatorMachine.Proofs.Assembly.Tiling
import AccumulatorMachine.Proofs.Layout
import AccumulatorMachine.Proofs.Conversion
import AccumulatorMachine.Proofs.Simulator.Listing
import AccumulatorMachine.Proofs.Machine.Step
import AccumulatorMachine.Proofs.Simulator.Stopping
import AccumulatorMachine.Proofs.Simulator.Isolation
import AccumulatorMachine.Proofs.Conversion.Structure
import AccumulatorMachine.Proofs.FileSystem
import AccumulatorMachine.Proofs.ProgramFile
import AccumulatorMachine.Proofs.Simulator.LoopGuard
import AccumulatorMachine.Proofs.Simulator.Trace
import AccumulatorMachine.Proofs.ProgramFile.Verbatim
import AccumulatorMachine.Proofs.Conversion.NormalForm
import AccumulatorMachine.Proofs.Machine.Access
import AccumulatorMachine.Proofs.Simulator.Accounting
import AccumulatorMachine.Proofs.Simulator.Balance
import AccumulatorMachine.Proofs.Cache.Interchange
import AccumulatorMachine.Proofs.Machine.Poke
import AccumulatorMachine.Proofs.Simulator.Preview
import AccumulatorMachine.Proofs.Simulator.Unread
import AccumulatorMachine.Proofs.Numeral.Reading
import AccumulatorMachine.Proofs.Line.Grammar
import AccumulatorMachine.Proofs.Cli.Inputs
import AccumulatorMachine.Proofs.Conversion.Printed
import AccumulatorMachine.Proofs.Cli.Stepping
import AccumulatorMachine.Proofs.Numeral.Written
import AccumulatorMachine.Proofs.ProgramFile.Endings
import AccumulatorMachine.Proofs.Conversion.DataLine
import AccumulatorMachine.Proofs.Settings.Document
import AccumulatorMachine.Proofs.Listing.Tiling
