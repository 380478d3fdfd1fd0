import OrmpIndexer.Foundation.LastWrite
import OrmpIndexer.Foundation.Layers
import OrmpIndexer.Foundation.Table
import OrmpIndexer.Foundation.Task
import OrmpIndexer.Foundation.Text
import OrmpIndexer.Foundation.Tiling
import OrmpIndexer.Datalens.Query
import OrmpIndexer.Decoder.RoundTrip
import OrmpIndexer.Database
import OrmpIndexer.Database.Replay
import OrmpIndexer.Database.Rollback
import OrmpIndexer.Database.Arrival
import OrmpIndexer.Database.Undo
import OrmpIndexer.Runner.Rules
import OrmpIndexer.Runner.Loop
import OrmpIndexer.Runner.Coverage
import OrmpIndexer.Runner.Progress
import OrmpIndexer.Runner.Frontier
import OrmpIndexer.Runner.Forks
import OrmpIndexer.Runner.RollbackPoint
import OrmpIndexer.Runner.Stability
import OrmpIndexer.Runner.Window
import OrmpIndexer.Runner.Convergence
import OrmpIndexer.Runner.Writers
import OrmpIndexer.Runner.Queries
import OrmpIndexer.Runner.Plan
import OrmpIndexer.Graphql.Pages
import OrmpIndexer.Graphql.Numbers
import OrmpIndexer.TronRecovery.Duplicates
import OrmpIndexer.TronRecovery.Progress
import OrmpIndexer.TronRecovery.Repeat
import OrmpIndexer.TronRecovery.Ranges
import OrmpIndexer.Planner.Partition
import OrmpIndexer.Checkpoint.Stores
import OrmpIndexer.Database.Ids
import OrmpIndexer.Database.Pattern
import OrmpIndexer.Datalens.Client
import OrmpIndexer.Datalens.Pacer
import OrmpIndexer.Metrics
import OrmpIndexer.Runner.Metered
import OrmpIndexer.Runner.Counters
import OrmpIndexer.Runner.Process
import OrmpIndexer.Runner.Balance
import OrmpIndexer.Runner.Unbroken
import OrmpIndexer.Ops.Scrape
import OrmpIndexer.Ops.Refreshes
import OrmpIndexer.Runner.Mirror
