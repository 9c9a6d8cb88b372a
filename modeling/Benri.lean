import Benri.Data.Table
import Benri.Data.Select
import Benri.Data.Slots
import Benri.Data.Yields
import Benri.Data.Wiring
import Benri.Data.Ordered
import Benri.Data.Lines
import Benri.Transition.Run
import Benri.Transition.History
import Benri.Transition.Loop
import Benri.Transition.WriteOnce
import Benri.Domain.Identifier
import Benri.Domain.Task
import Benri.Domain.Rescheduling
import Benri.Domain.Video
import Benri.Postgres.TaskRepository
import Benri.Postgres.VideoRepository
import Benri.Postgres.Schema
import Benri.Postgres.Pending
import Benri.Postgres.Backlog
import Benri.Redis.DistributedLock
import Benri.Redis.Locks
import Benri.Storage.Objects
import Benri.Storage.S3Client
import Benri.Storage.Routing
import Benri.Cdn.Nginx
import Benri.Worker.Handlers
import Benri.Worker.Outcomes
import Benri.Worker.Dispatch
import Benri.Worker.System
import Benri.Worker.Effect
import Benri.Worker.Ordering
import Benri.Worker.Exclusion
import Benri.Worker.Handling
import Benri.Worker.Recovery
import Benri.Worker.Leases
import Benri.Worker.SystemChecker
import Benri.Worker.SoleSweep
import Benri.Worker.Retries
import Benri.Worker.Queue
import Benri.Worker.Fleet
import Benri.Worker.FleetEffect
import Benri.Worker.Permits
import Benri.Worker.Attended
import Benri.Worker.Shutdown
import Benri.Worker.Graceful
import Benri.Transcoder.Quality
import Benri.Transcoder.Playlist
import Benri.Transcoder.HlsUploader
import Benri.Transcoder.UploadEffect
import Benri.Transcoder.Stored
import Benri.Transcoder.Drain
import Benri.Transcoder.Playable
import Benri.Transcoder.Published
import Benri.Transcoder.Republish
import Benri.Transcoder.Segments
import Benri.Transcoder.Complete
import Benri.Transcoder.Transcode
import Benri.Transcoder.Unwind
import Benri.Transcoder.Pipeline
import Benri.Transcoder.Builder
import Benri.Transcoder.Tiers
import Benri.Transcoder.Wired
import Benri.Service.Stores
import Benri.Service.CompleteUpload
import Benri.Service.CleanupStaleVideos
import Benri.Service.DeleteVideo
import Benri.Service.ProcessVideo
import Benri.Service.Transcoding
import Benri.Service.System
import Benri.Service.InitiateUpload
import Benri.Service.CompletionEffect
import Benri.Api.Middleware
import Benri.Service.ExecutionEffect
import Benri.Service.Effect
import Benri.Service.Rows
import Benri.Service.Outbox
import Benri.Service.Snapshots
import Benri.Service.Claim
import Benri.Service.Lifecycle
import Benri.Service.Outputs
import Benri.Service.EarlyPublish
import Benri.Service.GetVideo
import Benri.Service.Retention
import Benri.Service.Orphans
import Benri.Service.Original
import Benri.Service.Guards
import Benri.Service.Acceptance
import Benri.Service.Validated
import Benri.Service.Staleness
import Benri.Service.FailureDecision
import Benri.Service.Sweep
import Benri.Service.Removal
import Benri.Service.Classification
import Benri.Service.Story
import Benri.Service.Entry
import Benri.Service.Outcome
import Benri.Service.Delivered
import Benri.Service.Leftover
import Benri.Service.Uploads
import Benri.Service.Immutable
import Benri.Service.Playlists
import Benri.Service.Placement
import Benri.Cdn.Delivery
import Benri.Cdn.Playback
import Benri.Api.Handlers
import Benri.Frontend.Pages
import Benri.Frontend.Session
import Benri.Program.Handlers
import Benri.Program.System
import Benri.Program.Shared
import Benri.Program.Refinement
import Benri.Program.UnderWay
import Benri.Program.Exclusion
