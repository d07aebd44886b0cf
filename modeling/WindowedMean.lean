import WindowedMean.Cluster.FanOut
import WindowedMean.Ingestion.Group
import WindowedMean.Jobs
import WindowedMean.Config.Load
import WindowedMean.Service
import WindowedMean.Proofs.Folding
import WindowedMean.Proofs.Ledger
import WindowedMean.Proofs.Turns
import WindowedMean.Proofs.Conservation
import WindowedMean.Proofs.Delivery
import WindowedMean.Proofs.Weights
import WindowedMean.Proofs.Rebatching
import WindowedMean.Proofs.Following
import WindowedMean.Proofs.GlobalMean
import WindowedMean.Proofs.ArrivalOrder
import WindowedMean.Proofs.Refusals
import WindowedMean.Proofs.History
import WindowedMean.Proofs.Forecast
import WindowedMean.Proofs.Atomicity
import WindowedMean.Proofs.Interleaving
import WindowedMean.Proofs.Racing
import WindowedMean.Proofs.Counting
import WindowedMean.Proofs.GroupStop
import WindowedMean.Proofs.Producing
import WindowedMean.Proofs.Lanes
import WindowedMean.Proofs.Between
import WindowedMean.Proofs.Readings
import WindowedMean.Proofs.Routing
import WindowedMean.Proofs.OneReply
import WindowedMean.Proofs.Cycles
import WindowedMean.Proofs.Averages
import WindowedMean.Proofs.Splitting
import WindowedMean.Proofs.Emptying
import WindowedMean.Proofs.Combining
import WindowedMean.Proofs.Crossing
import WindowedMean.Proofs.Skipping
import WindowedMean.Proofs.Isolation
import WindowedMean.Proofs.Posting
import WindowedMean.Proofs.Signalling
import WindowedMean.Proofs.WordSums
import WindowedMean.Proofs.Precedence
import WindowedMean.Proofs.Objects
import WindowedMean.Proofs.Spelling
import WindowedMean.Proofs.Written
import WindowedMean.Proofs.Messages
import WindowedMean.Proofs.Settings
