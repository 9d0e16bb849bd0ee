import AnyList.Timestamps
import AnyList.Library.Members
import AnyList.Library.ThreeWayMerge
import AnyList.Library.Writes
import AnyList.Library.Dict
import AnyList.Library.AnchoredBits
import AnyList.Library.StableSort
import AnyList.Library.KeepApart
import AnyList.Library.LocalFold
import AnyList.Library.Table
import AnyList.Reconciliation.Resolve
import AnyList.Reconciliation.ResolveOrder
import AnyList.Reconciliation.ResolveSafety
import AnyList.Reconciliation.Sources
import AnyList.Reconciliation.Ratings
import AnyList.Reconciliation.UnchangedRatings
import AnyList.Reconciliation.RatingEchoes
import AnyList.Reconciliation.Watches
import AnyList.Reconciliation.RemovedWatches
import AnyList.Reconciliation.StagedWatches
import AnyList.Reconciliation.WatchDates
import AnyList.Reconciliation.CorrectedDates
import AnyList.Reconciliation.SinglePlay
import AnyList.Reconciliation.Completions
import AnyList.Reconciliation.InferredCompletions
import AnyList.Watchlist.Reconcile
import AnyList.Watchlist.PlexWatchlist
import AnyList.Watchlist.KeyTable
import AnyList.Watchlist.KeyByKey
import AnyList.Watchlist.Convergence
import AnyList.Watchlist.Interruption
import AnyList.Delivery.WatchedBitfield
import AnyList.Delivery.StremioPayloads
import AnyList.Delivery.StremioDelivery
import AnyList.Delivery.PushedState
import AnyList.Delivery.WatchIntents
import AnyList.Delivery.WatchIntentPasses
import AnyList.Delivery.CloudActions
import AnyList.Delivery.Acknowledgement
import AnyList.Delivery.LibraryIntents
import AnyList.Delivery.CurrentDeliveries
import AnyList.Streaming.Rows
import AnyList.Streaming.Account
import AnyList.Streaming.Processing
import AnyList.Streaming.Visibility
import AnyList.Streaming.VisibilityEchoes
import AnyList.Streaming.Import
import AnyList.Streaming.Observe
import AnyList.Streaming.Tombstones
import AnyList.Streaming.Quiet
import AnyList.Streaming.Imported
import AnyList.Streaming.Settled
import AnyList.Streaming.Reobservation
import AnyList.Persistence.Values
import AnyList.Persistence.PullCycleState
import AnyList.Persistence.CycleDelivery
import AnyList.Persistence.AtLeastOnce
import AnyList.Library.Runs
import AnyList.Releases.SeasonReleases
import AnyList.Releases.ReleaseNotices
import AnyList.Releases.ReleaseRuns
import AnyList.Persistence.DeferredChanges
import AnyList.Persistence.CycleFlush
import AnyList.Persistence.CurrentFlush
import AnyList.Imports.ReviewHistory
import AnyList.Imports.CommitProtocol
import AnyList.Imports.AppliedOnce
import AnyList.Imports.Plays
import AnyList.Backup.HistoryFiles
import AnyList.Backup.RestoredHistory
import AnyList.Backup.HistoryRoundTrip
import AnyList.Library.KeyedInserts
import AnyList.Backup.AccountExport
import AnyList.Backup.AccountImport
import AnyList.Backup.ListFiles
import AnyList.Backup.RestoredAccount
import AnyList.Backup.RestoredLists
import AnyList.Backup.AccountRoundTrip
import AnyList.Echoes.WatchEcho
import AnyList.Rewatch.RewatchCycle
import AnyList.Reconciliation.MissingNumbers
import AnyList.Imports.ViewingHistory
import AnyList.Activity.StreamingCards
import AnyList.Activity.EventHomes
import AnyList.Shows.EpisodeOrder
import AnyList.Shows.InverseOrders
import AnyList.Library.BatchPasses
import AnyList.Accounts.Administration
import AnyList.Imports.ImportDraft
import AnyList.Imports.DraftRuns
import AnyList.Accounts.DeviceGrants
import AnyList.Accounts.TokenFamilies
import AnyList.Accounts.AccountSecurity
import AnyList.Accounts.SecretsOnce
import AnyList.Catalogue.RefreshLease
import AnyList.Library.Quotas
import AnyList.Catalogue.ProviderLane
import AnyList.Catalogue.LaneBudgets
import AnyList.Backup.BackupFormat
import AnyList.Editor.PaintedSaves
import AnyList.Library.RankedCells
import AnyList.Catalogue.ProviderOrder
import AnyList.Activity.RebuiltCards
import AnyList.Library.Aliases
import AnyList.Catalogue.ContributorIdentities
import AnyList.Catalogue.CanonicalContributors
import AnyList.Library.Forests
import AnyList.Statistics.ListedSeries
import AnyList.Library.UniqueRows
import AnyList.Migrations.LosslessUpgrade
import AnyList.Statistics.SnapshotWorkers
import AnyList.Statistics.TriggeredWrites
import AnyList.Statistics.PublishedSnapshots
import AnyList.Delivery.PreservedPlays
import AnyList.Migrations.DuplicatePlays
import AnyList.Reconciliation.CloudRatingPolicy
import AnyList.Reconciliation.CoveredResumes
import AnyList.Library.Doubles
import AnyList.Imports.WatchDedup
import AnyList.Catalogue.PrincipalCredits
import AnyList.Catalogue.PrincipalSelection
import AnyList.Catalogue.EpisodeCatalogue
import AnyList.Catalogue.CatalogueRuns
import AnyList.Delivery.StremioClear
import AnyList.Delivery.ClearedRecords
import AnyList.Streaming.ListOrder
import AnyList.Imports.PrimeRowOrder
import AnyList.Rewatch.AiredCounts
import AnyList.Delivery.MergedShows
import AnyList.Streaming.MergedDismissals
import AnyList.Library.LastValue
import AnyList.Library.JsonPaths
import AnyList.Delivery.ShowPayloads
import AnyList.Streaming.NextUpSettings
import AnyList.Delivery.LibraryMerge
import AnyList.Library.PyText
import AnyList.Streaming.HistoryImport
import AnyList.Shows.MatchedEpisodes
import AnyList.Delivery.NewerPlayback
import AnyList.Imports.EpisodeResolution
import AnyList.Imports.GuessedEpisodes
import AnyList.Imports.ResolvedEpisodes
import AnyList.Imports.TitleGroups
import AnyList.Imports.ConservedTitles
import AnyList.Imports.PreparedTitles
import AnyList.Streaming.IncrementalPulls
import AnyList.Reconciliation.ClockReaders
import AnyList.Delivery.QueuedPlayback
import AnyList.Editor.ProgressRequests
import AnyList.Editor.ProgressHistory
import AnyList.Delivery.MatchingResumes
import AnyList.Library.Partial
import AnyList.Activity.FeedPages
import AnyList.Activity.Cards
import AnyList.Activity.NetProgress
import AnyList.Delivery.DeletionResets
import AnyList.Delivery.WaitingTombstones
import AnyList.Delivery.TombstoneRuns
import AnyList.Cycles.AccountCycle
import AnyList.Cycles.Followups
import AnyList.Cycles.ProviderChanges
import AnyList.Cycles.ProviderPulls
import AnyList.Cycles.ReconciledCheckpoints
import AnyList.Cycles.UnchangedProviders
import AnyList.Cycles.UnchangedRuns
import AnyList.Library.SerialTasks
import AnyList.Editor.EditorStore
import AnyList.Editor.OrderedWrites
import AnyList.Catalogue.ScreenCharacters
