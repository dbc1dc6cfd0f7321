import StraightWasm.CommandLine.Session
import StraightWasm.Linear.Run
import StraightWasm.Machine.Run
import StraightWasm.Main
import StraightWasm.Proofs.Compilation
import StraightWasm.Proofs.Linear.SingleAssignment
import StraightWasm.Proofs.Machine.Acceptance
import StraightWasm.Proofs.Machine.NoAliasing
import StraightWasm.Proofs.Module.Positions
import StraightWasm.StackCode.Run
import StraightWasm.Proofs.Bytes.Truncation
import StraightWasm.Proofs.Module.Truncation
import StraightWasm.Proofs.Limits
import StraightWasm.Proofs.Machine.Demand
import StraightWasm.Proofs.Machine.Renaming
import StraightWasm.Proofs.Bytes.Faults
import StraightWasm.Proofs.Module.Faults
import StraightWasm.Proofs.Linear.Faults
import StraightWasm.Proofs.Failures
import StraightWasm.Proofs.Bytes.Gathering
import StraightWasm.Proofs.Bytes.Exactness
import StraightWasm.Proofs.Linear.WellFormed
import StraightWasm.Proofs.Machine.Shape
import StraightWasm.Proofs.Bytes.Displacement
import StraightWasm.Proofs.Module.Displacement
import StraightWasm.Proofs.Linear.Displacement
import StraightWasm.Proofs.Module.Insertion
import StraightWasm.Proofs.Noninterference
import StraightWasm.Proofs.Machine.PoolHistory
import StraightWasm.Proofs.Histories
import StraightWasm.Proofs.Linear.Independence
import StraightWasm.Proofs.Machine.Assembly
import StraightWasm.Proofs.Linear.Normalization
import StraightWasm.Proofs.Module.Frugality
import StraightWasm.Proofs.Module.LocalRuns
import StraightWasm.Proofs.Bytes.Cursors
import StraightWasm.Proofs.Text.SnakeCase
import StraightWasm.Proofs.Listing
import StraightWasm.Proofs.Module.IndexRange
import StraightWasm.Proofs.Linear.Numbering
import StraightWasm.Proofs.Machine.BindingHistory
