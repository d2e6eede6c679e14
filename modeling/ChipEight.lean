import ChipEight.Layout
import ChipEight.Text
import ChipEight.Fault
import ChipEight.Instruction
import ChipEight.Keyboard
import ChipEight.Machine
import ChipEight.Frame
import ChipEight.Clock
import ChipEight.Random
import ChipEight.Journal
import ChipEight.Input
import ChipEight.Display
import ChipEight.Session
import ChipEight.CommandLine
import ChipEight.Main
import ChipEight.Proofs.Machine.HistoryInRange
import ChipEight.Proofs.Machine.Faults
import ChipEight.Proofs.Machine.Halt
import ChipEight.Proofs.Machine.Nesting
import ChipEight.Proofs.Session.Schedule
import ChipEight.Proofs.Machine.Redraw
import ChipEight.Proofs.Machine.Restart
import ChipEight.Proofs.Machine.KeyWait
import ChipEight.Proofs.Machine.RandomStream
import ChipEight.Proofs.Machine.Timers
import ChipEight.Proofs.Clock.Conservation
import ChipEight.Proofs.Session.InStep
import ChipEight.Proofs.Session.Operations
import ChipEight.Proofs.Session.Faulted
import ChipEight.Proofs.Session.Rendering
import ChipEight.Proofs.Session.Failing
import ChipEight.Proofs.Keyboard.Agreement
import ChipEight.Proofs.Session.Stream
import ChipEight.Proofs.CommandLine.Headless
import ChipEight.Proofs.Machine.Erasing
import ChipEight.Proofs.Session.Limit
import ChipEight.Proofs.CommandLine.Accepted
import ChipEight.Proofs.Machine.Arithmetic
import ChipEight.Proofs.Machine.Transfers
import ChipEight.Proofs.Machine.Drawn
import ChipEight.Proofs.Machine.Parts
import ChipEight.Proofs.Machine.Outcome
import ChipEight.Proofs.Session.Interleaving
import ChipEight.Proofs.Machine.KeyEvents
import ChipEight.Proofs.Clock.Rate
import ChipEight.Proofs.Session.Quitting
import ChipEight.Proofs.Session.Splitting
import ChipEight.Proofs.Session.RealTime
import ChipEight.Proofs.Instruction.Mnemonic
import ChipEight.Proofs.Display.Paper
import ChipEight.Proofs.Keyboard.Timing
import ChipEight.Proofs.Display.Console
import ChipEight.Proofs.Display.Shortage
import ChipEight.Proofs.Session.Tracing
