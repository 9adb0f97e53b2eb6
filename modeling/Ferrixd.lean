import Ferrixd.Burst.Faithful
import Ferrixd.Clock.RoundTrip
import Ferrixd.Codec.Segments
import Ferrixd.Command.Agreement
import Ferrixd.Command.Bracketing
import Ferrixd.Command.ChatHistory
import Ferrixd.Command.Monitor
import Ferrixd.Encode
import Ferrixd.History.Bounds
import Ferrixd.History.Paging
import Ferrixd.Invariant.Lifecycle
import Ferrixd.Invariant.RecordCalls
import Ferrixd.Invariant.RoomCalls
import Ferrixd.Invariant.Routes
import Ferrixd.Labels.Response
import Ferrixd.Login.Soundness
import Ferrixd.Mask.Language
import Ferrixd.Persist.Continuity
import Ferrixd.Persist.Refinement
import Ferrixd.Reload.Atomic
import Ferrixd.Ts6.Attribution
import Ferrixd.Ts6.Fidelity
import Ferrixd.Ts6.ReadLoop
import Ferrixd.Data.Weight
import Ferrixd.Plugin.KvStore
import Ferrixd.Command.FanOut
import Ferrixd.Command.Metadata
import Ferrixd.Command.Secrecy
import Ferrixd.Command.Handshake
import Ferrixd.Command.Watch
import Ferrixd.Data.Base64
import Ferrixd.Data.Rate
import Ferrixd.Data.Split
import Ferrixd.Invariant.Metadata
import Ferrixd.Invariant.Watches
import Ferrixd.Login.Certificates
import Ferrixd.Login.Chunks
import Ferrixd.Login.Scram
import Ferrixd.Plugin.Budget
import Ferrixd.Plugin.KvFile
import Ferrixd.Plugin.Modes
import Ferrixd.Ts6.Network
import Ferrixd.Plugin.Call
import Ferrixd.WebSocket.Reading
import Ferrixd.Burst.Walks
import Ferrixd.Ts6.Slices
import Ferrixd.Mask.Normal
import Ferrixd.WebSocket.Writing
import Ferrixd.Network.FanOut
import Ferrixd.Network.Splits
import Ferrixd.Network.Registries
import Ferrixd.Network.Presence
import Ferrixd.Data.Replica
