import DirectionCentral.Main
import DirectionCentral.Workbench
import DirectionCentral.Machine.Summary
import DirectionCentral.Proofs.Assembly.DataRange
import DirectionCentral.Proofs.Assembly.Fixups
import DirectionCentral.Proofs.Assembly.Numbers
import DirectionCentral.Proofs.Assembly.ObjectCode
import DirectionCentral.Proofs.Assembly.Rejection
import DirectionCentral.Proofs.Assembly.Respelling
import DirectionCentral.Proofs.CommandLine.Running
import DirectionCentral.Proofs.Debugger.Running
import DirectionCentral.Proofs.Debugger.Session
import DirectionCentral.Proofs.Debugger.Views
import DirectionCentral.Proofs.Demonstration.Verdict
import DirectionCentral.Proofs.Disassembly.Listing
import DirectionCentral.Proofs.Disassembly.Reassembly
import DirectionCentral.Proofs.Image.Document
import DirectionCentral.Proofs.Instruction.Codec
import DirectionCentral.Proofs.Machine.Budget
import DirectionCentral.Proofs.Machine.ExactStep
import DirectionCentral.Proofs.Machine.Execution
import DirectionCentral.Proofs.Machine.Footprint
import DirectionCentral.Proofs.Machine.Halting
import DirectionCentral.Proofs.Machine.IndexRange
import DirectionCentral.Proofs.Machine.Loop
import DirectionCentral.Proofs.Machine.Observation
import DirectionCentral.Proofs.Machine.Recording
import DirectionCentral.Proofs.Machine.Saving
import DirectionCentral.Proofs.Machine.Subroutine
import DirectionCentral.Proofs.Machine.Timekeeping
import DirectionCentral.Proofs.Workbench.Repetition
