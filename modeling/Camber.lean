import Camber.Multipart.Bounds
import Camber.Multipart.Rendezvous
import Camber.Multipart.Sharpness
import Camber.Routing.Refusal
import Camber.Routing.WholePattern
import Camber.Proxy.Mount
import Camber.Server.StopRuns
import Camber.Server.Sockets
import Camber.Server.Upgrades
import Camber.WebSocket.Outbound
import Camber.WebSocket.Receives
import Camber.Policy.Chains
import Camber.Dispatch.HostRouting
import Camber.Dispatch.Enforcement
import Camber.Dispatch.Provenance
import Camber.Dispatch.BufferedBody
import Camber.Proxy.Headers
import Camber.Client.Origins
import Camber.Client.Pinned
import Camber.Client.BodyRuns
import Camber.Runtime.Sweep
import Camber.Runtime.Turn
import Camber.Integration.Access
import Camber.Integration.CloseFailure
import Camber.Integration.Teardown
import Camber.Dns01.Zone
import Camber.Nats.Correlation
import Camber.Resource.Callbacks
import Camber.Resource.Sequential
import Camber.RateLimit.Bound
import Camber.Multipart.Quoted
import Camber.Proxy.BasePath
import Camber.Telemetry.Traceparent
import Camber.Http.Sse
import Camber.Http.Form
