import Jukebox.Config.Environment
import Jukebox.Registry.Rehearsal
import Jukebox.Proofs.Queue.Conservation
import Jukebox.Proofs.Queue.Fairness
import Jukebox.Proofs.Player.SkipPermission
import Jukebox.Proofs.Player.EndNotices
import Jukebox.Proofs.Player.Acts
import Jukebox.Proofs.Player.NowPlaying
import Jukebox.Proofs.Limits.Admission
import Jukebox.Proofs.Player.Holdings
import Jukebox.Proofs.Player.Retries
import Jukebox.Proofs.Text.Base64
import Jukebox.Proofs.Text.Utf8
import Jukebox.Proofs.Json.Numbers
import Jukebox.Proofs.Json.RoundTrip
import Jukebox.Proofs.Track.Codec
import Jukebox.Proofs.Queue.Listing
import Jukebox.Proofs.Queue.Precedence
import Jukebox.Proofs.Queue.Reads
import Jukebox.Proofs.Storage.Directory
import Jukebox.Proofs.Storage.Configurations
import Jukebox.Proofs.Player.SnapshotRoundTrip
import Jukebox.Proofs.Limits.Batches
import Jukebox.Proofs.Player.AfterTheEnd
import Jukebox.Proofs.Player.History
import Jukebox.Proofs.Registry.SingleFlight
import Jukebox.Proofs.Player.Resuming
import Jukebox.Proofs.Storage.Files
import Jukebox.Proofs.Storage.OwnFile
import Jukebox.Proofs.Track.SavedTracks
import Jukebox.Proofs.Player.SnapshotText
import Jukebox.Proofs.Storage.Snapshots
import Jukebox.Proofs.Registry.Links
import Jukebox.Proofs.Registry.Shutdown
import Jukebox.Proofs.Player.Stopping
import Jukebox.Proofs.Player.Counters
import Jukebox.Proofs.Order.Places
import Jukebox.Proofs.Order.AnyOrder
import Jukebox.Proofs.Player.Feed
import Jukebox.Proofs.Queue.Circulation
import Jukebox.Proofs.Player.IdleStart
import Jukebox.Proofs.Player.Headcount
import Jukebox.Proofs.Player.ResumePoint
import Jukebox.Proofs.Player.Seeking
import Jukebox.Proofs.Player.Restoring
import Jukebox.Proofs.Player.Traffic
import Jukebox.Proofs.Player.Refusals
import Jukebox.Proofs.Storage.DurationLimit
import Jukebox.Proofs.Player.Volume
