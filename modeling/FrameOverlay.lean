import FrameOverlay.Bench
import FrameOverlay.Compositor
import FrameOverlay.Config
import FrameOverlay.Cycle
import FrameOverlay.Decimal.Basic
import FrameOverlay.Decimal.Shortest
import FrameOverlay.Describe
import FrameOverlay.Device.Call
import FrameOverlay.Device.Driver
import FrameOverlay.Device.State
import FrameOverlay.Error
import FrameOverlay.Expr.Basic
import FrameOverlay.Expr.Cursor
import FrameOverlay.Expr.Double
import FrameOverlay.Expr.Grammar
import FrameOverlay.Expr.Parser
import FrameOverlay.Expr.Positional
import FrameOverlay.Expr.Token
import FrameOverlay.Filter
import FrameOverlay.Format
import FrameOverlay.Json.Fault
import FrameOverlay.Json.Grammar
import FrameOverlay.Json.Numeral
import FrameOverlay.Json.Reader
import FrameOverlay.Json.Text
import FrameOverlay.Json.Token
import FrameOverlay.Kernel.Image
import FrameOverlay.Kernel.Launch
import FrameOverlay.Kernel.Thread
import FrameOverlay.Memory.Plane
import FrameOverlay.Memory.Pool
import FrameOverlay.Memory.Store
import FrameOverlay.Offset
import FrameOverlay.Picture
import FrameOverlay.Pipeline
import FrameOverlay.Plan
import FrameOverlay.Position
import FrameOverlay.Proofs.Config.RoundTrip
import FrameOverlay.Proofs.Device.Accounts
import FrameOverlay.Proofs.Device.Filters
import FrameOverlay.Proofs.Device.Lifetime
import FrameOverlay.Proofs.Device.Modules
import FrameOverlay.Proofs.Device.Moments
import FrameOverlay.Proofs.Device.Orders
import FrameOverlay.Proofs.Device.Scopes
import FrameOverlay.Proofs.Expr.Calls
import FrameOverlay.Proofs.Expr.Descent
import FrameOverlay.Proofs.Expr.Ink
import FrameOverlay.Proofs.Expr.Lexing
import FrameOverlay.Proofs.Expr.Nesting
import FrameOverlay.Proofs.Expr.Parsing
import FrameOverlay.Proofs.Expr.Safety
import FrameOverlay.Proofs.Expr.Settling
import FrameOverlay.Proofs.Filter.Coherence
import FrameOverlay.Proofs.Filter.Configuration
import FrameOverlay.Proofs.Kernel.Placement
import FrameOverlay.Proofs.Kernel.Region
import FrameOverlay.Proofs.Memory.Isolation
import FrameOverlay.Proofs.Memory.Leases
import FrameOverlay.Proofs.Memory.Pools
import FrameOverlay.Proofs.Memory.Store
import FrameOverlay.Proofs.Memory.Writable
import FrameOverlay.Proofs.Sync.Clock
import FrameOverlay.Proofs.Sync.Conservation
import FrameOverlay.Proofs.Sync.Delivery
import FrameOverlay.Proofs.Sync.Ledger
import FrameOverlay.Proofs.Sync.Pairing
import FrameOverlay.Proofs.Sync.Progress
import FrameOverlay.Proofs.Sync.Round
import FrameOverlay.Proofs.Sync.Schedule
import FrameOverlay.Proofs.Sync.Simulation
import FrameOverlay.Proofs.Sync.Slot
import FrameOverlay.Proofs.Sync.Stages
import FrameOverlay.Proofs.Sync.Steady
import FrameOverlay.Proofs.Sync.Supply
import FrameOverlay.Proofs.Time.Merging
import FrameOverlay.Queue
import FrameOverlay.Session
import FrameOverlay.Studio
import FrameOverlay.Sync.Journal
import FrameOverlay.Sync.Junction
import FrameOverlay.Sync.Options
import FrameOverlay.Sync.Receiver
import FrameOverlay.Sync.Slot
import FrameOverlay.Sync.Synchronizer
import FrameOverlay.Text.Blank
import FrameOverlay.Text.Bytes
import FrameOverlay.Text.Places
import FrameOverlay.Text.Record
import FrameOverlay.TimeBase
import FrameOverlay.Timestamp
import FrameOverlay.Writable
