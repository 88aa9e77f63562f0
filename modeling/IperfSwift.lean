import IperfSwift.Lib.Program
import IperfSwift.Lib.Heap
import IperfSwift.Lib.Utf8
import IperfSwift.Lib.Json.Grammar
import IperfSwift.CJson.Parse
import IperfSwift.CJson.Complete
import IperfSwift.Output.Source
import IperfSwift.Output.Fragmentation
import IperfSwift.Output.Values
import IperfSwift.Output.Cost
import IperfSwift.Output.Language
import IperfSwift.Output.Memory
import IperfSwift.Output.Selection
import IperfSwift.Output.Reason
import IperfSwift.Output.Status
import IperfSwift.Output.Agreement
import IperfSwift.Output.Calls
import IperfSwift.Socket.Framing
import IperfSwift.Stats.Interleaving
import IperfSwift.Udp.Loss
import IperfSwift.Lifecycle.Outcome
import IperfSwift.Lifecycle.Stop
import IperfSwift.Log.Size
import IperfSwift.Params.Server
import IperfSwift.Client.Ports
import IperfSwift.Client.Preflight
import IperfSwift.Server.Ending
import IperfSwift.ClientRun.Session
import IperfSwift.Auth.Users
import IperfSwift.Auth.Token
