import TinyProxy.Text.Search
import TinyProxy.Text.Expand
import TinyProxy.Text.Replace
import TinyProxy.Data.Multimap
import TinyProxy.Data.Transition
import TinyProxy.Data.Serde
import TinyProxy.Data.Yields
import TinyProxy.Data.Writes
import TinyProxy.Data.Linearization
import TinyProxy.Rust.Str
import TinyProxy.Rust.Words
import TinyProxy.Rust.Net
import TinyProxy.Rust.LetterCase
import TinyProxy.Http.Header
import TinyProxy.Http.Message
import TinyProxy.Http.Display
import TinyProxy.Http.Url
import TinyProxy.Config.Models
import TinyProxy.Config.Address
import TinyProxy.Config.Parser
import TinyProxy.Config.Sockets
import TinyProxy.Config.Layout
import TinyProxy.Config.Conservation
import TinyProxy.Config.Render
import TinyProxy.Config.RoundTrip
import TinyProxy.Config.Acceptance
import TinyProxy.Config.Numbering
import TinyProxy.Config.Independence
import TinyProxy.Config.Serde
import TinyProxy.Config.Agreement
import TinyProxy.Config.Durations
import TinyProxy.Config.Lockstep
import TinyProxy.Config.Tokens
import TinyProxy.Config.Rule
import TinyProxy.Config.Loaded
import TinyProxy.Config.Canonical
import TinyProxy.Config.Order
import TinyProxy.Config.Format
import TinyProxy.Config.Timeouts
import TinyProxy.Auth.Headers
import TinyProxy.Auth.Termination
import TinyProxy.Auth.SinglePass
import TinyProxy.Proxy.ForwardAuth
import TinyProxy.Proxy.Directives
import TinyProxy.Proxy.Handler
import TinyProxy.Proxy.Pipeline
import TinyProxy.Proxy.Serve
import TinyProxy.Proxy.Correlation
import TinyProxy.Proxy.Authorization
import TinyProxy.Proxy.AuthMetrics
import TinyProxy.Proxy.Identity
import TinyProxy.Proxy.Noninterference
import TinyProxy.Proxy.Routing
import TinyProxy.Proxy.Response
import TinyProxy.Proxy.Accounting
import TinyProxy.Proxy.Paths
import TinyProxy.Proxy.Query
import TinyProxy.Proxy.Subrequest
import TinyProxy.Proxy.Forwarding
import TinyProxy.Proxy.Propagation
import TinyProxy.Proxy.HeaderUp
import TinyProxy.Proxy.ConnectTimeout
import TinyProxy.Proxy.Listen
import TinyProxy.Proxy.StartModes
import TinyProxy.Proxy.Sockets
import TinyProxy.Proxy.Wildcard
import TinyProxy.Proxy.BareHost
import TinyProxy.Proxy.Tls
import TinyProxy.Proxy.Certificates
import TinyProxy.Proxy.LetterCase
import TinyProxy.Proxy.Redirect
import TinyProxy.Proxy.Upgrade
import TinyProxy.Proxy.Union
import TinyProxy.Proxy.Concurrency
import TinyProxy.Proxy.Route
import TinyProxy.Proxy.Egress
import TinyProxy.Api.Endpoints
import TinyProxy.Api.Snapshot
import TinyProxy.Api.Server
import TinyProxy.System.Machine
import TinyProxy.System.Shared
import TinyProxy.System.Limit
import TinyProxy.System.Progress
import TinyProxy.System.Live
import TinyProxy.System.Restore
import TinyProxy.System.Lifecycle
import TinyProxy.System.Bookkeeping
import TinyProxy.System.Reach
import TinyProxy.System.Shield
import TinyProxy.System.Exhausted
import TinyProxy.System.Listening
