import Uvhttp.Basic
import Uvhttp.Lib.Incremental
import Uvhttp.WebSocket.Frame
import Uvhttp.WebSocket.Connection
import Uvhttp.WebSocket.Decode
import Uvhttp.WebSocket.Refinement
import Uvhttp.WebSocket.Chunking
import Uvhttp.Lib.Wire
import Uvhttp.WebSocket.Reassembly
import Uvhttp.Http.Request
import Uvhttp.Http.Spans
import Uvhttp.Http.Pipeline
import Uvhttp.Http.Response
import Uvhttp.Http.Restart
import Uvhttp.Connection.Lifecycle
import Uvhttp.Connection.Teardown
import Uvhttp.Server.Accounting
import Uvhttp.Lib.OrderedTrie
import Uvhttp.Lib.TrieContents
import Uvhttp.Router.Model
import Uvhttp.Router.Trie
import Uvhttp.Router.Registration
import Uvhttp.Router.Migration
import Uvhttp.Router.Cache
import Uvhttp.Router.CacheQuery
import Uvhttp.Router.Dispatch
import Uvhttp.Lib.OpenAddressing
import Uvhttp.Router.CacheTable
import Uvhttp.Router.CacheStability
import Uvhttp.Router.Agreement
import Uvhttp.Lib.LinkedList
import Uvhttp.Static.LruCache
import Uvhttp.Static.LruInvariant
import Uvhttp.Static.LruRuns
import Uvhttp.Static.LruRecency
import Uvhttp.Static.Sendfile
import Uvhttp.Static.SendfileLifetime
import Uvhttp.Static.SendfileWire
import Uvhttp.Static.SendfileImage
import Uvhttp.Connection.Output
import Uvhttp.Static.Path
import Uvhttp.Static.Handler
import Uvhttp.Static.ExactlyOnce
import Uvhttp.Static.Confinement
import Uvhttp.Connection.TlsConfinement
import Uvhttp.Lib.Lines
import Uvhttp.Http.Compression
import Uvhttp.Http.Framing
import Uvhttp.Connection.Upgrade
import Uvhttp.Connection.Ownership
import Uvhttp.WebSocket.Verdict
import Uvhttp.WebSocket.Grammar
import Uvhttp.WebSocket.Sending
import Uvhttp.WebSocket.Delivery
import Uvhttp.Lib.Search
import Uvhttp.WebSocket.Handshake
import Uvhttp.WebSocket.HandshakeAgreement
import Uvhttp.WebSocket.FrameLog
import Uvhttp.WebSocket.Lifetime
import Uvhttp.WebSocket.CallbackOrder
import Uvhttp.WebSocket.Heartbeat
import Uvhttp.Server.RateLimit
import Uvhttp.WebSocket.Codec
import Uvhttp.WebSocket.FrameLimit
import Uvhttp.WebSocket.Transport
import Uvhttp.WebSocket.MessageBound
import Uvhttp.Http.GzipLru
import Uvhttp.Http.GzipRefinement
import Uvhttp.Http.SharedCompression
import Uvhttp.Lib.ForwardList
import Uvhttp.Server.WsManager
import Uvhttp.Server.ProtocolUpgrade
import Uvhttp.Router.StaticContext
import Uvhttp.Server.WsLifetime
import Uvhttp.Http.BodyLimit
import Uvhttp.Lib.StringBlock
import Uvhttp.Http.HeaderStore
import Uvhttp.Http.HeaderSlots
import Uvhttp.Http.ResponseHeaders
import Uvhttp.Http.RequestHeaders
import Uvhttp.Http.HeaderRefinement
import Uvhttp.Http.HeaderOverwrite
import Uvhttp.Http.RepeatedBuild
import Uvhttp.Http.ContentEncoding
import Uvhttp.Http.GzipBudget
import Uvhttp.Router.FailedRegistration
import Uvhttp.WebSocket.ReceiveAgreement
import Uvhttp.Lib.TrieSearch
import Uvhttp.Router.Match
import Uvhttp.Router.MatchNodes
import Uvhttp.Router.CacheMatch
import Uvhttp.Router.MatchAgreement
import Uvhttp.Router.Params
import Uvhttp.Router.CacheCapacity
import Uvhttp.Lib.Template
import Uvhttp.Router.CacheExtraction
import Uvhttp.Static.LruEviction
import Uvhttp.Static.LruPut
import Uvhttp.Http.RequestPath
import Uvhttp.Lib.TreePath
import Uvhttp.Static.MimeType
import Uvhttp.Static.PathExact
import Uvhttp.Lib.PercentEncoding
import Uvhttp.Static.PathValidation
import Uvhttp.Static.SendfileProgress
import Uvhttp.Static.Prewarm
import Uvhttp.Lib.Calendar
import Uvhttp.Static.HttpDate
import Uvhttp.Static.ResponseHeaders
import Uvhttp.Static.ConditionalRequest
import Uvhttp.Lib.BoundedText
import Uvhttp.Static.DirectoryListing
import Uvhttp.Static.ListingInjection
import Uvhttp.Static.Faithful
import Uvhttp.Static.FaithfulRuns
import Uvhttp.Http.QueryParam
import Uvhttp.Server.RateLimitStatus
import Uvhttp.Server.Whitelist
import Uvhttp.Connection.TlsCipher
import Uvhttp.Lib.Loop
import Uvhttp.WebSocket.RecvMemory
import Uvhttp.Lib.IndexedTree
import Uvhttp.Router.NodePool
import Uvhttp.Http.HeaderRendering
import Uvhttp.Lib.Escape
import Uvhttp.Static.HtmlEscape
import Uvhttp.Lib.StoredTrie
import Uvhttp.Router.PoolRefinement
import Uvhttp.Connection.Memory
import Uvhttp.Connection.TlsDelivery
import Uvhttp.Http.KeepAlive
import Uvhttp.Lib.Addressed
import Uvhttp.Server.Broadcast
import Uvhttp.Server.Configuration
import Uvhttp.Server.Context
import Uvhttp.Server.Ownership
import Uvhttp.Server.RequestLimit
import Uvhttp.WebSocket.UpgradeHandshake
import Uvhttp.Lib.Timers
import Uvhttp.Server.Deadline
import Uvhttp.Static.ConfinedRuns
