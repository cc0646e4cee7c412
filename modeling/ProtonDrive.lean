import ProtonDrive.Lib.Prog
import ProtonDrive.Lib.Follows
import ProtonDrive.Lib.Results
import ProtonDrive.Lib.Encoding
import ProtonDrive.Lib.Strings
import ProtonDrive.Lib.Json
import ProtonDrive.Lib.Sorting
import ProtonDrive.Lib.Paths
import ProtonDrive.Lib.Closure
import ProtonDrive.Lib.Tables
import ProtonDrive.Lib.Histories
import ProtonDrive.Lib.Calendar
import ProtonDrive.Lib.Checked
import ProtonDrive.Lib.Crc
import ProtonDrive.Api.Dto
import ProtonDrive.Core.Crypto
import ProtonDrive.Core.Rpgp
import ProtonDrive.Core.Host
import ProtonDrive.Core.Actions
import ProtonDrive.Core.Traces
import ProtonDrive.Core.Served
import ProtonDrive.Core.Keys
import ProtonDrive.Core.Xattr
import ProtonDrive.Core.Upload
import ProtonDrive.Core.Download
import ProtonDrive.Core.Client
import ProtonDrive.Core.Events
import ProtonDrive.Core.Listing
import ProtonDrive.Core.Transparent
import ProtonDrive.Core.Scripted
import ProtonDrive.App.Transfer
import ProtonDrive.App.Session
import ProtonDrive.App.Http
import ProtonDrive.App.Account
import ProtonDrive.App.Panes
import ProtonDrive.App.Ui
import ProtonDrive.Upload.Steps
import ProtonDrive.Upload.Runs
import ProtonDrive.Upload.Commit
import ProtonDrive.Upload.Links
import ProtonDrive.Upload.Progress
import ProtonDrive.Upload.Checksum
import ProtonDrive.Upload.Chunking
import ProtonDrive.Download.Steps
import ProtonDrive.Download.Authentic
import ProtonDrive.Download.Manifest
import ProtonDrive.Download.Complete
import ProtonDrive.Download.Discipline
import ProtonDrive.RoundTrip.Store
import ProtonDrive.RoundTrip.Download
import ProtonDrive.Transfer.Cancel
import ProtonDrive.Transfer.Pool
import ProtonDrive.Events.Log
import ProtonDrive.Events.Drain
import ProtonDrive.Events.Loop
import ProtonDrive.Events.Delivery
import ProtonDrive.Events.Once
import ProtonDrive.Events.Ends
import ProtonDrive.Events.Cancel
import ProtonDrive.Events.Rounds
import ProtonDrive.Listing.Identity
import ProtonDrive.Client.Chain
import ProtonDrive.Client.ShareKey
import ProtonDrive.Session.Steps
import ProtonDrive.Session.Stores
import ProtonDrive.Session.Rejected
import ProtonDrive.Session.Rotation
import ProtonDrive.Session.Bearer
import ProtonDrive.Session.Cell
import ProtonDrive.Session.Timer
import ProtonDrive.Session.Clients
import ProtonDrive.Session.Spurious
import ProtonDrive.Session.Lifetimes
import ProtonDrive.Session.Retired
import ProtonDrive.Account.Cascade
import ProtonDrive.Account.Recipients
import ProtonDrive.Account.Bootstrap
import ProtonDrive.Account.Armor
import ProtonDrive.Errors.Endpoints
import ProtonDrive.Ui.Steps
import ProtonDrive.Ui.Coherent
import ProtonDrive.Ui.Isolation
import ProtonDrive.Xattr.Calendar
import ProtonDrive.Xattr.RoundTrip
import ProtonDrive.App.Auth
import ProtonDrive.Account.Salts
import ProtonDrive.Lib.Search
import ProtonDrive.Download.Reported
import ProtonDrive.Lib.Paging
import ProtonDrive.Listing.Pages
import ProtonDrive.Listing.Filter
import ProtonDrive.Lib.Files
import ProtonDrive.Transfer.Disk
import ProtonDrive.Transfer.Containment
import ProtonDrive.Transfer.Leftover
import ProtonDrive.Ui.Navigation
import ProtonDrive.Transfer.Watch
import ProtonDrive.Upload.Counted
import ProtonDrive.Lib.Utf8
import ProtonDrive.Upload.Panics
import ProtonDrive.Crypto.Signers
import ProtonDrive.Crypto.Wrap
import ProtonDrive.Lib.Layers
import ProtonDrive.App.Stack
import ProtonDrive.App.Cli
import ProtonDrive.Session.Commands
import ProtonDrive.Session.Logout
import ProtonDrive.Session.SignIn
import ProtonDrive.Session.Expiry
import ProtonDrive.Wire.Commit
import ProtonDrive.Reference.ChunkReader
import ProtonDrive.Reference.StreamUploader
import ProtonDrive.Reference.Uploads
import ProtonDrive.Reference.UploadInvariant
import ProtonDrive.Reference.UploadCommit
import ProtonDrive.Reference.UploadCapacity
import ProtonDrive.Reference.FileDownloader
import ProtonDrive.Reference.DownloadInvariant
import ProtonDrive.Reference.DownloadComplete
import ProtonDrive.Reference.RoundTrip
import ProtonDrive.Wire.Retries
