import TapeMachine.Balance
import TapeMachine.Call
import TapeMachine.Canonical
import TapeMachine.Seconds
import TapeMachine.Timer
import TapeMachine.Machine.Reach
import TapeMachine.Machine.Unbounded
import TapeMachine.Main
import TapeMachine.Proofs.Backends
import TapeMachine.Proofs.Blame
import TapeMachine.Proofs.Deadlines
import TapeMachine.Proofs.NormalForms
import TapeMachine.Proofs.Protocol
import TapeMachine.Rust.LiteralReader
import TapeMachine.Rust.Meaning
import TapeMachine.Structured
import TapeMachine.Token
import TapeMachine.Proofs.Safety
import TapeMachine.Proofs.Encodings
import TapeMachine.Proofs.Dispatch
import TapeMachine.Proofs.Records
import TapeMachine.Proofs.Wrapping
import TapeMachine.Proofs.Matching
import TapeMachine.Proofs.CanonicalTexts
import TapeMachine.Proofs.Counting
import TapeMachine.Proofs.Reports
import TapeMachine.Proofs.Pairing
import TapeMachine.Proofs.Inputs
import TapeMachine.Proofs.Timers
import TapeMachine.Proofs.Traces
import TapeMachine.Proofs.Nesting
import TapeMachine.Proofs.PlainExcerpts
import TapeMachine.Proofs.Scanning
import TapeMachine.Proofs.Positions
