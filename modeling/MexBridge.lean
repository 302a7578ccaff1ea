import MexBridge.Main
import MexBridge.Workload
import MexBridge.Proofs.Command.Generation
import MexBridge.Proofs.Command.Reading
import MexBridge.Proofs.Command.Refusal
import MexBridge.Proofs.Gateway.Dispatch
import MexBridge.Proofs.Source.Stops
import MexBridge.Proofs.Statement.Parsing
import MexBridge.Proofs.Stub.Merging
import MexBridge.Proofs.Stub.Releases
import MexBridge.Proofs.Command.Positions
import MexBridge.Proofs.Command.Accounting
import MexBridge.Proofs.Stub.Calls
import MexBridge.Proofs.Stub.Backing
import MexBridge.Proofs.Gateway.Definitions
import MexBridge.Proofs.Routine.Usage
import MexBridge.Proofs.Source.Reading
import MexBridge.Proofs.Source.Ending
import MexBridge.Proofs.Command.Unfinished
import MexBridge.Proofs.Source.Splicing
import MexBridge.Proofs.Source.Script
import MexBridge.Proofs.Source.Lockstep
import MexBridge.Proofs.Command.Script
import MexBridge.Proofs.Command.Outputs
import MexBridge.Proofs.Command.SeparateRuns
import MexBridge.Proofs.Command.Listing
import MexBridge.Proofs.Command.Batch
import MexBridge.Proofs.Source.Retelling
import MexBridge.Proofs.Ledger.Widening
import MexBridge.Proofs.Command.Retelling
import MexBridge.Proofs.Command.Widening
import MexBridge.Proofs.Stub.Conversions
import MexBridge.Proofs.Gateway.Prototypes
import MexBridge.Proofs.Command.Pages
import MexBridge.Proofs.Text.Quotation
import MexBridge.Proofs.Stub.Quotation
import MexBridge.Proofs.Ledger.Names
import MexBridge.Proofs.Stub.Quotable
import MexBridge.Proofs.Gateway.Quotation
import MexBridge.Proofs.Command.Completeness
import MexBridge.Proofs.Ledger.Declared
import MexBridge.Proofs.Ledger.RoundTrip
import MexBridge.Proofs.Routine.SignatureKey
import MexBridge.Proofs.Source.Routing
import MexBridge.Proofs.Gateway.Casting
import MexBridge.Proofs.Source.SupportLines
import MexBridge.Proofs.Stub.Sizes
import MexBridge.Proofs.Token.Coverage
import MexBridge.Proofs.Token.Stability
