import StackDebugger.Main
import StackDebugger.Proofs.Debugger.CallBalance
import StackDebugger.Proofs.Debugger.PlainBuild
import StackDebugger.Proofs.Debugger.CodePointers
import StackDebugger.Proofs.Debugger.BreakpointStops
import StackDebugger.Proofs.Debugger.Tracing
import StackDebugger.Proofs.Adapter.FrontEnds
import StackDebugger.Proofs.Adapter.RequestWire
import StackDebugger.Proofs.Session.Inspection
import StackDebugger.Proofs.Adapter.ProgramEnd
import StackDebugger.Proofs.Program.Disassembly
import StackDebugger.Proofs.Debugger.FirstStop
import StackDebugger.Proofs.Debugger.Stepping
import StackDebugger.Proofs.Debugger.StepInto
import StackDebugger.Proofs.Program.LabelFaults
import StackDebugger.Proofs.Program.SkippedLines
import StackDebugger.Proofs.Debugger.Failures
import StackDebugger.Proofs.Debugger.ArmedSteps
import StackDebugger.Proofs.Machine.FrameIsolation
import StackDebugger.Proofs.Adapter.FailedLaunch
import StackDebugger.Proofs.Debugger.Parameters
import StackDebugger.Proofs.Debugger.BreakpointHistory
import StackDebugger.Proofs.Machine.StackDisplay
import StackDebugger.Proofs.Machine.IntegerInput
import StackDebugger.Proofs.Debugger.VariableSlots
import StackDebugger.Proofs.Machine.Arithmetic
