import LadderMachine.Main
import LadderMachine.Container.Writer
import LadderMachine.Proofs.Program.WellFormed
import LadderMachine.Proofs.Machine.Execution
import LadderMachine.Proofs.Machine.Moves
import LadderMachine.Proofs.Machine.History
import LadderMachine.Proofs.Machine.Safety
import LadderMachine.Proofs.Record
import LadderMachine.Proofs.Text.Fields
import LadderMachine.Proofs.Text.Lines
import LadderMachine.Proofs.Container.Grammar
import LadderMachine.Proofs.Container.Acceptance
import LadderMachine.Proofs.LookUps
import LadderMachine.Proofs.Container.Tables
import LadderMachine.Proofs.Container.Written
import LadderMachine.Proofs.Container.RoundTrip
import LadderMachine.Proofs.Machine.Counters
import LadderMachine.Proofs.Machine.StepLimit
import LadderMachine.Proofs.Machine.Refinement
import LadderMachine.Proofs.Container.Sources
import LadderMachine.Proofs.Machine.TwoRuns
import LadderMachine.Proofs.Simulator.Actions
import LadderMachine.Proofs.Simulator.Consistency
import LadderMachine.Proofs.Simulator.Reload
import LadderMachine.Proofs.Machine.Runs
import LadderMachine.Proofs.Machine.Footprint
import LadderMachine.Proofs.Machine.Conservation
import LadderMachine.Proofs.Container.Normalization
import LadderMachine.Proofs.CommandLine.Events
import LadderMachine.Proofs.CommandLine.Run
import LadderMachine.Proofs.Container.FaultyLine
import LadderMachine.Proofs.Container.LastLine
import LadderMachine.Proofs.Container.Coherence
import LadderMachine.Proofs.Machine.OperandFaults
import LadderMachine.Proofs.Machine.BackwardJumps
import LadderMachine.Proofs.Machine.Tracing
import LadderMachine.Proofs.Machine.Warnings
import LadderMachine.Proofs.Text.Numerals
import LadderMachine.Proofs.Listing.Words
import LadderMachine.Proofs.Listing.Faithful
import LadderMachine.Proofs.Container.Capacities
import LadderMachine.Proofs.Container.Reordering
import LadderMachine.Proofs.Container.Terminators
import LadderMachine.Proofs.Arithmetic
import LadderMachine.Proofs.Memory.Dump
import LadderMachine.Proofs.PinNames
