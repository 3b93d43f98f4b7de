import Logbook.Script.Parts
import Logbook.Script.Run
import Logbook.Text.Lines
import Logbook.Proofs.PoolParts
import Logbook.Proofs.Ownership
import Logbook.Proofs.Ledger
import Logbook.Proofs.Calendar
import Logbook.Proofs.Capture
import Logbook.Proofs.Rendering
import Logbook.Proofs.Receipts
import Logbook.Proofs.Runs
import Logbook.Proofs.StandardLine
import Logbook.Proofs.Delivery
import Logbook.Proofs.Alike
import Logbook.Proofs.Pooling
import Logbook.Proofs.Changes
import Logbook.Proofs.InOrder
import Logbook.Proofs.Tally
import Logbook.Proofs.Critical
import Logbook.Proofs.Custody
import Logbook.Proofs.Detour
import Logbook.Proofs.Closing
import Logbook.Proofs.Names
import Logbook.Proofs.Registries
import Logbook.Proofs.Grammar
import Logbook.Proofs.Tokens
import Logbook.Proofs.Containers
import Logbook.Proofs.Documents
import Logbook.Proofs.Acceptance
import Logbook.Proofs.RoundTrip
import Logbook.Proofs.Accounts
import Logbook.Proofs.Exclusive
import Logbook.Proofs.Routes
import Logbook.Proofs.Resting
import Logbook.Proofs.Callers
import Logbook.Proofs.Counting
import Logbook.Proofs.InStep
import Logbook.Proofs.Outlines
import Logbook.Proofs.Twins
import Logbook.Proofs.Supplies
import Logbook.Proofs.Turnover
import Logbook.Proofs.Occupancy
import Logbook.Proofs.Faithful
import Logbook.Proofs.Peak
import Logbook.Proofs.Roster
import Logbook.Proofs.FanOut
import Logbook.Proofs.Levels
import Logbook.Proofs.Facets
import Logbook.Proofs.Gregorian
import Logbook.Proofs.Stamps
import Logbook.Proofs.Segments
import Logbook.Proofs.WholeWrites
import Logbook.Proofs.Alarms
import Logbook.Proofs.RawPanics
import Logbook.Proofs.Digits
import Logbook.Proofs.ClosedFlush
import Logbook.Proofs.LastSecond
import Logbook.Proofs.Bench
import Logbook.Proofs.Handover
import Logbook.Proofs.Alone
