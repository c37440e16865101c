import Zuhttp.Proofs.Framing
import Zuhttp.Proofs.Pool
import Zuhttp.Proofs.Capacity
import Zuhttp.Proofs.EngineKey
import Zuhttp.Body
import Zuhttp.Proofs.Phr
import Zuhttp.Proofs.Deframing
import Zuhttp.Proofs.Inflate
import Zuhttp.Proofs.Window
import Zuhttp.Proofs.Staged
import Zuhttp.Library.Assoc
import Zuhttp.Library.Pull
import Zuhttp.Library.Shelf
import Zuhttp.Proofs.OpenBody
import Zuhttp.Proofs.Truncation
import Zuhttp.Proofs.Completion
import Zuhttp.Proofs.Request
import Zuhttp.Proofs.Redact
import Zuhttp.Proofs.Cap
import Zuhttp.Proofs.Limit
import Zuhttp.Proofs.Refusal
import Zuhttp.Redirect
import Zuhttp.Response
import Zuhttp.Proxy
import Zuhttp.World
import Zuhttp.Connect
import Zuhttp.Exchange
import Zuhttp.Perform
import Zuhttp.Proofs.Host
import Zuhttp.Proofs.Ledger
import Zuhttp.Proofs.Building
import Zuhttp.Proofs.Sending
import Zuhttp.Proofs.Exchange
import Zuhttp.Proofs.Chain
import Zuhttp.Proofs.Hops
import Zuhttp.Proofs.Perform
import Zuhttp.Proofs.Ownership
import Zuhttp.Proofs.Log
import Zuhttp.Proofs.Redirects
import Zuhttp.Proofs.Confinement
import Zuhttp.Proofs.Wire
import Zuhttp.FileSink
import Zuhttp.Proofs.FileSink
import Zuhttp.Schannel
import Zuhttp.Proofs.Schannel
import Zuhttp.Cassette
import Zuhttp.Proofs.Cassette
import Zuhttp.Proofs.Retry
import Zuhttp.Proofs.ProxyAuth
import Zuhttp.Proofs.ProxyConfinement
import Zuhttp.Proofs.UriParse
import Zuhttp.Proofs.Stripping
import Zuhttp.Proofs.Trail
import Zuhttp.Proofs.NoProxy
import Zuhttp.Proofs.Reuse
import Zuhttp.H2Submit
import Zuhttp.Proofs.H2Submit
import Zuhttp.H2Body
import Zuhttp.Proofs.H2Body
import Zuhttp.H2Log
import Zuhttp.Proofs.H2Log
import Zuhttp.Proofs.H2Reply
import Zuhttp.HeaderList
import Zuhttp.Proofs.HeaderList
import Zuhttp.Proofs.TraceLog
import Zuhttp.Library.Base64
import Zuhttp.Library.Percent
import Zuhttp.Proofs.Credentials
import Zuhttp.Proofs.Query
import Zuhttp.Library.UriText
import Zuhttp.Proofs.QueryUrl
import Zuhttp.HeaderVec
import Zuhttp.Library.Overlay
import Zuhttp.Proofs.HeaderVec
import Zuhttp.ContentType
import Zuhttp.Proofs.ContentType
import Zuhttp.Library.Double
import Zuhttp.RespRead
import Zuhttp.Library.Portions
import Zuhttp.Proofs.RespRead
import Zuhttp.Library.Rfc3986
import Zuhttp.Proofs.UriRoundTrip
import Zuhttp.Library.Utf8
import Zuhttp.Proofs.RedactAgain
import Zuhttp.Proofs.Utf8
import Zuhttp.Library.Memory
import Zuhttp.Proofs.TraceSlot
import Zuhttp.Alpn
import Zuhttp.Library.Prefixed
import Zuhttp.Proofs.Alpn
import Zuhttp.Proofs.Stream
import Zuhttp.GrowBuffer
import Zuhttp.Proofs.GrowBuffer
import Zuhttp.Proofs.PhrHead
import Zuhttp.Proofs.Heads
import Zuhttp.Net
import Zuhttp.Proofs.Net
import Zuhttp.Library.StreamCode
import Zuhttp.Proofs.Decoding
import Zuhttp.Proofs.Delivery
import Zuhttp.Proofs.Answered
import Zuhttp.Proofs.Boundary
import Zuhttp.Proofs.FinalBody
