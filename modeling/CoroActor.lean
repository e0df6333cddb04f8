import CoroActor.Config.Endpoints
import CoroActor.Example.Services
import CoroActor.Library.CallStack
import CoroActor.Library.Dialogue
import CoroActor.Link.ReadLoops
import CoroActor.Master.Shutdown
import CoroActor.Master.Slots
import CoroActor.Master.Spawning
import CoroActor.Master.Stopping
import CoroActor.Master.TitleRegion
import CoroActor.Proxy.Access
import CoroActor.Proxy.Chains
import CoroActor.Proxy.Conservation
import CoroActor.Proxy.Cycles
import CoroActor.Proxy.Disconnect
import CoroActor.Proxy.LoopCheck
import CoroActor.Proxy.Registries
import CoroActor.Proxy.Rest
import CoroActor.Proxy.Rollback
import CoroActor.Proxy.Routing
import CoroActor.Proxy.Selection
import CoroActor.Proxy.Streams
import CoroActor.Proxy.Waiting
import CoroActor.Proxy.Wakeup
import CoroActor.Startup.Registration
import CoroActor.System.Calls
import CoroActor.System.Completion
import CoroActor.System.Freshness
import CoroActor.System.Offered
import CoroActor.System.Rest
import CoroActor.System.Rpc
import CoroActor.System.Services
import CoroActor.Worker.CallId
import CoroActor.Worker.Isolation
import CoroActor.Worker.Replies
import CoroActor.Worker.Response
import CoroActor.Worker.Rest
import CoroActor.Worker.Scheduling
import CoroActor.Worker.Services
import CoroActor.Worker.Session
import CoroActor.Worker.Traffic
