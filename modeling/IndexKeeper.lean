import IndexKeeper.Archive.Deflate
import IndexKeeper.Archive.Directory
import IndexKeeper.Archive.Entry
import IndexKeeper.Archive.Packing
import IndexKeeper.Bytes
import IndexKeeper.CommandGenerator
import IndexKeeper.CommandLine
import IndexKeeper.CommandLine.Arguments
import IndexKeeper.CommandLine.Help
import IndexKeeper.Config
import IndexKeeper.Coordinator
import IndexKeeper.Engine
import IndexKeeper.Environment
import IndexKeeper.Files.Disk
import IndexKeeper.Files.Path
import IndexKeeper.Files.Tree
import IndexKeeper.Generator
import IndexKeeper.Hash.Crc32
import IndexKeeper.Hash.Sha256
import IndexKeeper.Http.Exchange
import IndexKeeper.Http.ListenAddress
import IndexKeeper.Http.Url
import IndexKeeper.Json.Printer
import IndexKeeper.Json.Reader
import IndexKeeper.Json.Record
import IndexKeeper.Json.Value
import IndexKeeper.Main
import IndexKeeper.Manifest
import IndexKeeper.NameMap
import IndexKeeper.Provider
import IndexKeeper.Provider.AzureDevOps
import IndexKeeper.Provider.GitHub
import IndexKeeper.Provider.Request
import IndexKeeper.Publisher
import IndexKeeper.RequestPath
import IndexKeeper.Shell.Expansion
import IndexKeeper.Shell.Run
import IndexKeeper.Shell.Script
import IndexKeeper.Shell.Token
import IndexKeeper.Shell.Utility
import IndexKeeper.Source
import IndexKeeper.Source.Scan
import IndexKeeper.Status
import IndexKeeper.Status.Wire
import IndexKeeper.Store
import IndexKeeper.Text.Base64
import IndexKeeper.Text.Blank
import IndexKeeper.Text.CodePage437
import IndexKeeper.Text.Percent
import IndexKeeper.Text.Utf8
import IndexKeeper.Time.Calendar
import IndexKeeper.Time.Clock
import IndexKeeper.Time.Instant
import IndexKeeper.Time.Timestamp
import IndexKeeper.Toml.Document
import IndexKeeper.Toml.Scalar
import IndexKeeper.Toml.Value
import IndexKeeper.Visited
import IndexKeeper.Proofs.VisitedRoom
import IndexKeeper.Proofs.WorkflowPolls
import IndexKeeper.Proofs.Regeneration
import IndexKeeper.Proofs.PathNames
import IndexKeeper.Proofs.TreeEntries
import IndexKeeper.Proofs.TreeWays
import IndexKeeper.Proofs.StandingStore
import IndexKeeper.Proofs.FileSteps
import IndexKeeper.Proofs.RecordedPairs
import IndexKeeper.Proofs.ManifestText
import IndexKeeper.Proofs.StoredTexts
import IndexKeeper.Proofs.KeptStore
import IndexKeeper.Proofs.OpenedStore
import IndexKeeper.Proofs.IndexSteps
import IndexKeeper.Proofs.PublishedIndex
import IndexKeeper.Proofs.FilePolls
import IndexKeeper.Proofs.Lifetimes
import IndexKeeper.Proofs.RestartedPolls
import IndexKeeper.Proofs.Recovery
import IndexKeeper.Proofs.CommandPaths
import IndexKeeper.Proofs.PublicationRuns
import IndexKeeper.Proofs.EngineRuns
import IndexKeeper.Proofs.PublishingRounds
import IndexKeeper.Proofs.AlikeStores
import IndexKeeper.Proofs.SourceIsolation
import IndexKeeper.Proofs.IsolatedRounds
import IndexKeeper.Proofs.Inspections
import IndexKeeper.Proofs.VisitedHistory
import IndexKeeper.Proofs.FinishedRuns
import IndexKeeper.Proofs.ServedIndex
import IndexKeeper.Proofs.UnpublishedRounds
import IndexKeeper.Proofs.LoadedStore
import IndexKeeper.Proofs.SpentPolls
import IndexKeeper.Proofs.QuietEngines
import IndexKeeper.Proofs.UnchangedWorld
import IndexKeeper.Proofs.ReloadedStore
import IndexKeeper.Proofs.FileActions
import IndexKeeper.Proofs.ConcurrentCalls
import IndexKeeper.Proofs.CutOff
import IndexKeeper.Proofs.SurfacingRuns
import IndexKeeper.Proofs.AcceptedConfigs
import IndexKeeper.Proofs.BuildPages
import IndexKeeper.Proofs.RunPages
import IndexKeeper.Proofs.ReachedRuns
import IndexKeeper.Proofs.BuildPolls
import IndexKeeper.Proofs.TakenRuns
import IndexKeeper.Proofs.ResumedScans
import IndexKeeper.Proofs.FileHistories
import IndexKeeper.Proofs.OwnStorage
import IndexKeeper.Proofs.ReconfiguredRounds
import IndexKeeper.Proofs.NewestVisited
import IndexKeeper.Proofs.ListingRequests
import IndexKeeper.Proofs.ArtifactPages
import IndexKeeper.Proofs.PackedDirectory
import IndexKeeper.Proofs.PackedFiles
import IndexKeeper.Proofs.RequestPaths
import IndexKeeper.Proofs.WrittenManifests
import IndexKeeper.Proofs.SurvivingKeys
import IndexKeeper.Proofs.Leftovers
import IndexKeeper.Proofs.EntryNames
