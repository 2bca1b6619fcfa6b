import OrderEngine.Library.ArrayStack
import OrderEngine.Library.Budget
import OrderEngine.Library.Greedy
import OrderEngine.Library.Grid
import OrderEngine.Library.History
import OrderEngine.Library.Listing
import OrderEngine.Library.LittleEndian
import OrderEngine.Library.PopLoop
import OrderEngine.Library.Portions
import OrderEngine.Library.Potential
import OrderEngine.Library.PriceTime
import OrderEngine.Library.RingBuffer
import OrderEngine.Library.Scan
import OrderEngine.Library.Segment
import OrderEngine.Library.Simulation
import OrderEngine.Library.Tally
import OrderEngine.Library.Unsigned
import OrderEngine.Library.WhileLoop
import OrderEngine.Construction.Audit
import OrderEngine.Construction.Calls
import OrderEngine.Construction.Chain
import OrderEngine.Construction.Diagnostics
import OrderEngine.Construction.Driver
import OrderEngine.Construction.EventLoop
import OrderEngine.Construction.Interleaving
import OrderEngine.Construction.IntrusiveList
import OrderEngine.Construction.Machine
import OrderEngine.Construction.MarketDataGateway
import OrderEngine.Construction.MatchingEngine
import OrderEngine.Construction.MemoryPool
import OrderEngine.Construction.OrderBook
import OrderEngine.Construction.Pipeline
import OrderEngine.Construction.Protocol
import OrderEngine.Construction.SpscQueue
import OrderEngine.Construction.Types
import OrderEngine.Construction.Watch
import OrderEngine.Ledger.Accounts
import OrderEngine.Ledger.Calls
import OrderEngine.Ledger.Crossing
import OrderEngine.Ledger.Fill
import OrderEngine.Ledger.Image
import OrderEngine.Ledger.Invariant
import OrderEngine.Ledger.Ledger
import OrderEngine.Ledger.Matching
import OrderEngine.Ledger.Normal
import OrderEngine.Ledger.Origin
import OrderEngine.Ledger.Outcome
import OrderEngine.Ledger.Plan
import OrderEngine.Ledger.Registry
import OrderEngine.Ledger.Replace
import OrderEngine.Ledger.Settled
import OrderEngine.Ledger.Shelves
import OrderEngine.Ledger.Statement
import OrderEngine.Ledger.Steps
import OrderEngine.Ledger.SymmetricRuns
import OrderEngine.Ledger.Symmetry
import OrderEngine.Ledger.Ticks
import OrderEngine.Ledger.Timeline
import OrderEngine.Ledger.Trades
import OrderEngine.Ledger.Undo
import OrderEngine.Ledger.Unique
import OrderEngine.Ledger.Volume
import OrderEngine.Ledger.Withdrawals
import OrderEngine.Refinement.Amounts
import OrderEngine.Refinement.Arrival
import OrderEngine.Refinement.Audit
import OrderEngine.Refinement.Blind
import OrderEngine.Refinement.Calls
import OrderEngine.Refinement.Exact
import OrderEngine.Refinement.Fill
import OrderEngine.Refinement.Links
import OrderEngine.Refinement.Lists
import OrderEngine.Refinement.Machine
import OrderEngine.Refinement.Match
import OrderEngine.Refinement.Orders
import OrderEngine.Refinement.Queue
import OrderEngine.Refinement.Reports
import OrderEngine.Refinement.Represents
import OrderEngine.Refinement.Runs
import OrderEngine.Refinement.Strays
import OrderEngine.Refinement.Threads
import OrderEngine.Refinement.Traced
import OrderEngine.Refinement.Walk
import OrderEngine.Refinement.Watch
import OrderEngine.Reference.Book
import OrderEngine.Reference.Exchange
import OrderEngine.Reference.Match
import OrderEngine.Reference.Rebuild
import OrderEngine.Reference.Steps
import OrderEngine.Reference.Tracks
import OrderEngine.Guarantee.Amendment
import OrderEngine.Guarantee.Arithmetic
import OrderEngine.Guarantee.Batches
import OrderEngine.Guarantee.CatchUp
import OrderEngine.Guarantee.Chains
import OrderEngine.Guarantee.Codec
import OrderEngine.Guarantee.Commuting
import OrderEngine.Guarantee.Conservation
import OrderEngine.Guarantee.Depth
import OrderEngine.Guarantee.Diagnostics
import OrderEngine.Guarantee.EventLoop
import OrderEngine.Guarantee.Execution
import OrderEngine.Guarantee.Failure
import OrderEngine.Guarantee.Frames
import OrderEngine.Guarantee.Genuine
import OrderEngine.Guarantee.Interleaving
import OrderEngine.Guarantee.Load
import OrderEngine.Guarantee.Lookup
import OrderEngine.Guarantee.Machine
import OrderEngine.Guarantee.MakeTake
import OrderEngine.Guarantee.Mirror
import OrderEngine.Guarantee.Misuse
import OrderEngine.Guarantee.Observation
import OrderEngine.Guarantee.Occupancy
import OrderEngine.Guarantee.Origin
import OrderEngine.Guarantee.Pool
import OrderEngine.Guarantee.Portions
import OrderEngine.Guarantee.Priority
import OrderEngine.Guarantee.Quotes
import OrderEngine.Guarantee.Releases
import OrderEngine.Guarantee.Schedule
import OrderEngine.Guarantee.Sequences
import OrderEngine.Guarantee.Shutdown
import OrderEngine.Guarantee.Sides
import OrderEngine.Guarantee.Slots
import OrderEngine.Guarantee.Snapshot
import OrderEngine.Guarantee.Statement
import OrderEngine.Guarantee.Termination
import OrderEngine.Guarantee.Timeline
import OrderEngine.Guarantee.Turnover
import OrderEngine.Guarantee.Twins
import OrderEngine.Guarantee.Undo
import OrderEngine.Guarantee.Uninterrupted
import OrderEngine.Guarantee.WaitFree
