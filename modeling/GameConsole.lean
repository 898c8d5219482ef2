import GameConsole.Natural
import GameConsole.Configuration
import GameConsole.Console.Basic
import GameConsole.Console.Control
import GameConsole.Console.Execution
import GameConsole.Console.Lifecycle
import GameConsole.Directory
import GameConsole.Graphics.Queue
import GameConsole.Graphics.Decoder
import GameConsole.Graphics.Packet
import GameConsole.Graphics.State
import GameConsole.Headless.Options
import GameConsole.Headless.Presenter
import GameConsole.Headless.Report
import GameConsole.Headless.Runner
import GameConsole.Journal
import GameConsole.Json.Record
import GameConsole.Json.Number
import GameConsole.Json.Scan
import GameConsole.Main
import GameConsole.Memory.Access
import GameConsole.Memory.Basic
import GameConsole.PlainData
import GameConsole.Procedure
import GameConsole.Processor.Control
import GameConsole.Processor.Execution
import GameConsole.Processor.Instruction
import GameConsole.Processor.Machine
import GameConsole.Processor.Registers
import GameConsole.Program.Assembly
import GameConsole.Program.Bios
import GameConsole.Program.Loader
import GameConsole.Proofs.Graphics.Execution
import GameConsole.Proofs.Graphics.Framing
import GameConsole.Proofs.Graphics.Nesting
import GameConsole.Proofs.Memory.Folding
import GameConsole.Proofs.Memory.History
import GameConsole.Proofs.Memory.Transfer
import GameConsole.Proofs.PlainData
import GameConsole.Proofs.Processor.Agreement
import GameConsole.Proofs.Processor.Atomicity
import GameConsole.Proofs.Processor.Execution
import GameConsole.Proofs.Processor.Reference
import GameConsole.Proofs.Processor.Reports
import GameConsole.Proofs.Procedure
import GameConsole.Proofs.Syscall.Reports
import GameConsole.SparseTable
import GameConsole.Syscall.Audio
import GameConsole.Syscall.Devices
import GameConsole.Syscall.Dispatcher
import GameConsole.Syscall.Graphics
import GameConsole.Syscall.Kernel
import GameConsole.Syscall.Number
import GameConsole.Syscall.Pad
import GameConsole.Text
import GameConsole.Proofs.Console.Thread
import GameConsole.Proofs.Console.Session
import GameConsole.Proofs.Console.Ownership
import GameConsole.Proofs.Console.Solo
import GameConsole.Proofs.Console.Pursuit
import GameConsole.Proofs.Console.Pausing
import GameConsole.Proofs.Memory.Confinement
import GameConsole.Proofs.Memory.Alignment
import GameConsole.Proofs.Syscall.Footprint
import GameConsole.Proofs.Console.Announcements
import GameConsole.Proofs.Console.Starting
import GameConsole.Proofs.Syscall.Mapping
import GameConsole.Proofs.Graphics.Handoff
import GameConsole.Proofs.Graphics.Packets
import GameConsole.Proofs.Graphics.Inlining
import GameConsole.Proofs.Syscall.Submission
import GameConsole.Proofs.Memory.Holding
import GameConsole.Proofs.Graphics.Encoding
import GameConsole.Proofs.Program.Assembly
import GameConsole.Proofs.Processor.Rest
import GameConsole.Proofs.Processor.Drivers
import GameConsole.Proofs.Console.Posture
import GameConsole.Proofs.Console.Failure
import GameConsole.Proofs.Graphics.Registers
import GameConsole.Proofs.Console.Restraint
import GameConsole.Proofs.Console.Braking
import GameConsole.Proofs.Console.Diary
import GameConsole.Proofs.Console.Publishing
import GameConsole.Proofs.Program.Boot
import GameConsole.Proofs.Console.Renewal
import GameConsole.Proofs.Console.Inheritance
import GameConsole.Proofs.Headless.Counting
import GameConsole.Proofs.Headless.Opening
import GameConsole.Proofs.Headless.Presentation
import GameConsole.Proofs.Graphics.Unfolding
import GameConsole.Proofs.Graphics.Workload
import GameConsole.Proofs.Graphics.Drawing
import GameConsole.Proofs.Console.Custody
import GameConsole.Proofs.Console.Promptness
import GameConsole.Proofs.Console.Acceptance
import GameConsole.Proofs.Memory.Refusal
import GameConsole.Proofs.Program.Placement
import GameConsole.Proofs.Syscall.Tenure
import GameConsole.Proofs.Processor.Stack
import GameConsole.Proofs.Graphics.Viewport
import GameConsole.Proofs.Syscall.Printing
import GameConsole.Proofs.Layout
import GameConsole.Proofs.Syscall.Pads
import GameConsole.Proofs.Syscall.Ports
import GameConsole.Proofs.Memory.Interchange
import GameConsole.Proofs.Program.Overlap
import GameConsole.Proofs.Console.Entry
import GameConsole.Proofs.Json.Numerals
import GameConsole.Proofs.Json.Records
import GameConsole.Proofs.Configuration
import GameConsole.Proofs.Processor.Traffic
import GameConsole.Proofs.Graphics.Backlog
