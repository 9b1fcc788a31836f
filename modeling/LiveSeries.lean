import LiveSeries.Backoff
import LiveSeries.Settings.Document
import LiveSeries.Gate.Script
import LiveSeries.Header
import LiveSeries.Session
import LiveSeries.Proofs.EntryList
import LiveSeries.Proofs.Walk
import LiveSeries.Proofs.ZipWalk
import LiveSeries.Proofs.CursorMoves
import LiveSeries.Proofs.PointLookup
import LiveSeries.Proofs.HubWrites
import LiveSeries.Proofs.RegistryRecords
import LiveSeries.Proofs.HubSubscriptions
import LiveSeries.Proofs.FollowerRounds
import LiveSeries.Proofs.HubDeeds
import LiveSeries.Proofs.GrowingEntries
import LiveSeries.Proofs.Wakeup
import LiveSeries.Proofs.SessionReaders
import LiveSeries.Proofs.FirstArrivals
import LiveSeries.Proofs.StoreEntries
import LiveSeries.Proofs.SnapshotLoad
import LiveSeries.Proofs.CommandsAtKey
import LiveSeries.Proofs.Streaming
import LiveSeries.Proofs.SeriesEdits
import LiveSeries.Proofs.LogShipping
import LiveSeries.Proofs.Ledger
import LiveSeries.Proofs.CursorImages
import LiveSeries.Proofs.ZipAlgebra
import LiveSeries.Proofs.FailedMutations
import LiveSeries.Proofs.GateRuns
import LiveSeries.Proofs.RegistryRuns
import LiveSeries.Proofs.FaultedMoves
import LiveSeries.Proofs.Announcements
import LiveSeries.Proofs.Notifications
import LiveSeries.Proofs.Completion
import LiveSeries.Proofs.WaiterAccounts
import LiveSeries.Proofs.ReaderSchedules
import LiveSeries.Proofs.CursorLifecycle
import LiveSeries.Proofs.GateReads
import LiveSeries.Proofs.RequestAccounts
import LiveSeries.Proofs.Redelivery
import LiveSeries.Proofs.CompletionCommands
import LiveSeries.Proofs.FailedLoads
import LiveSeries.Proofs.RelaxedDrops
import LiveSeries.Proofs.StackedQueues
import LiveSeries.Proofs.AppendRules
import LiveSeries.Proofs.RepeatedAppends
import LiveSeries.Proofs.LoadedCompletion
import LiveSeries.Proofs.ValueTransforms
import LiveSeries.Proofs.ViewEntries
import LiveSeries.Proofs.VersionHistory
import LiveSeries.Proofs.SubscribedTrees
import LiveSeries.Proofs.ScalarArithmetic
import LiveSeries.Proofs.AdmittedKeys
