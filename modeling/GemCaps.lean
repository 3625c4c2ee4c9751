import GemCaps.Library.Cutting
import GemCaps.Library.Backlog
import GemCaps.Library.Transition
import GemCaps.Library.Simulation
import GemCaps.Library.Trace
import GemCaps.Library.Feeding
import GemCaps.Library.Sessions
import GemCaps.Library.Loading
import GemCaps.Library.Lines
import GemCaps.Library.Queue
import GemCaps.Library.Ledger
import GemCaps.Library.Lending
import GemCaps.Library.OrderedMap
import GemCaps.Library.Terminated
import GemCaps.Library.Probing
import GemCaps.Library.Register
import GemCaps.Text
import GemCaps.Path.Normal
import GemCaps.Path.Level
import GemCaps.Path.Length
import GemCaps.Path.Resolution
import GemCaps.Path.Relative
import GemCaps.Path.Joining
import GemCaps.Path.Ends
import GemCaps.Request.Uri
import GemCaps.Request.RoundTrip
import GemCaps.Request.Soundness
import GemCaps.Request.Slices
import GemCaps.Request.Target
import GemCaps.Executor.Arrays
import GemCaps.Executor.Buffers
import GemCaps.Files.Handler
import GemCaps.Files.Routing
import GemCaps.Files.Environment
import GemCaps.Connection.Pipe
import GemCaps.Connection.PipeArray
import GemCaps.Connection.Client
import GemCaps.Connection.GracefulClose
import GemCaps.Connection.SingleEnd
import GemCaps.Connection.PendingClose
import GemCaps.Connection.Wire
import GemCaps.Connection.Timeout
import GemCaps.Connection.Server
import GemCaps.Request.Response
import GemCaps.Request.Literal
import GemCaps.Request.Number
import GemCaps.Connection.Manager
import GemCaps.Connection.CloseCallback
import GemCaps.Connection.Delivery
import GemCaps.Connection.Dispatch
import GemCaps.Connection.Segmentation
import GemCaps.Connection.Isolation
import GemCaps.Connection.Writes
import GemCaps.Connection.Numbering
import GemCaps.Connection.TlsInput
import GemCaps.Files.Serving
import GemCaps.Files.Containment
import GemCaps.Files.Effects
import GemCaps.Files.Redirects
import GemCaps.Files.HeaderRoom
import GemCaps.Files.MimeTypes
import GemCaps.Files.MimeTable
import GemCaps.Files.MimeLookup
import GemCaps.Files.CgiOutput
import GemCaps.Files.Validation
import GemCaps.Files.Release
import GemCaps.Files.Transcript
import GemCaps.Files.Exchange
import GemCaps.Files.StaticFile
import GemCaps.Files.Place
import GemCaps.Files.Mapping
import GemCaps.Files.Executable
import GemCaps.Files.Listing
import GemCaps.Files.Links
import GemCaps.Files.BackLink
import GemCaps.Request.Reply
import GemCaps.Files.Replies
import GemCaps.Files.Contexts
import GemCaps.Files.Private
import GemCaps.Files.Dangling
import GemCaps.Memory.ReusableAllocator
import GemCaps.Memory.Ownership
import GemCaps.Memory.Loans
import GemCaps.Memory.Footprint
import GemCaps.Connection.Handles
import GemCaps.Executor.Processes
import GemCaps.Cache.Store
import GemCaps.Cache.Eviction
import GemCaps.Cache.Limit
import GemCaps.Cache.Counter
import GemCaps.Cache.Waiters
import GemCaps.Cache.Rounds
import GemCaps.Cache.Promises
import GemCaps.Cache.Contents
import GemCaps.Cache.Answers
import GemCaps.Config.Settings
import GemCaps.Config.Loader
import GemCaps.Config.Directory
import GemCaps.Config.Startup
import GemCaps.Config.ScriptRunners
import GemCaps.Config.Routes
import GemCaps.Config.ArgParse
import GemCaps.Config.Main
import GemCaps.Config.Site
