import Rung.Operator
import Rung.Relation
import Rung.Tag
import Rung.Problem
import Rung.Diagnostic
import Rung.Device.Word
import Rung.Device.Bit
import Rung.Device.Basic
import Rung.Allocator
import Rung.Condition
import Rung.Circuit
import Rung.Program
import Rung.Cell
import Rung.Command
import Rung.Sequence
import Rung.Gauge
import Rung.Lowering
import Rung.Compile
import Rung.Image
import Rung.Semantics
import Rung.Scan
import Rung.Controller
import Rung.Log
import Rung.Plant
import Rung.Text.Unprintable
import Rung.Text.Quoted
import Rung.Text.Decimal
import Rung.CommandLine.Options
import Rung.CommandLine.Demo
import Rung.CommandLine.Transcript
import Rung.Main
import Rung.Proofs.StackDepth
import Rung.Proofs.Compilation
import Rung.Proofs.Builders
import Rung.Proofs.NormalForm
import Rung.Proofs.Network
import Rung.Proofs.Canonical
import Rung.Proofs.Decoding
import Rung.Proofs.Meaning
import Rung.Proofs.Footprint
import Rung.Proofs.Runs
import Rung.Proofs.Frame
import Rung.Proofs.Agreement
import Rung.Proofs.Entries
import Rung.Proofs.Noninterference
import Rung.Proofs.Assembly
import Rung.Proofs.Blocks
import Rung.Proofs.NeededDepth
import Rung.Proofs.Turns
import Rung.Proofs.Timers
import Rung.Proofs.Counters
import Rung.Proofs.Issuing
import Rung.Proofs.Registration
import Rung.Proofs.Bounds
import Rung.Proofs.LastWriter
import Rung.Proofs.Exchange
import Rung.Proofs.Commutation
import Rung.Proofs.Idempotence
import Rung.Proofs.Interlocks
import Rung.Proofs.Duality
import Rung.Proofs.Traps
import Rung.Proofs.Effects
import Rung.Proofs.Digits
import Rung.Proofs.Forcing
import Rung.Proofs.MotorPlant
import Rung.Proofs.Listing
import Rung.Proofs.Readability
import Rung.Proofs.Context
