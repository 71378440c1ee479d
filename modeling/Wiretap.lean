import Wiretap.Main
import Wiretap.Platform.ProcessName
import Wiretap.Proofs.Adapter.Agreement
import Wiretap.Proofs.Adapter.Settings
import Wiretap.Proofs.Adapter.Shutdown
import Wiretap.Proofs.Block.Directions
import Wiretap.Proofs.Block.Layouts
import Wiretap.Proofs.Block.Movements
import Wiretap.Proofs.Block.Obfuscation
import Wiretap.Proofs.Block.Registrations
import Wiretap.Proofs.Block.Texts
import Wiretap.Proofs.Config.Saved
import Wiretap.Proofs.Config.Single
import Wiretap.Proofs.Connection.Closing
import Wiretap.Proofs.Frame.Partition
import Wiretap.Proofs.Frame.Stream
import Wiretap.Proofs.Injection.Scripted
import Wiretap.Proofs.Manager.Keeping
import Wiretap.Proofs.Manager.Routing
import Wiretap.Proofs.Platform.Addresses
import Wiretap.Proofs.Session.Buffer
import Wiretap.Proofs.Session.Dispatch
import Wiretap.Proofs.Session.Lifetime
import Wiretap.Proofs.Session.Pings
import Wiretap.Proofs.Session.Requests
import Wiretap.Proofs.Session.Sent
import Wiretap.Proofs.Supervision.Isolation
import Wiretap.Proofs.Supervision.Restarts
import Wiretap.Proofs.Supervision.Stopping
import Wiretap.Proofs.Watcher.Names
import Wiretap.Proofs.Watcher.Reports
import Wiretap.Scenario.HelperScript
import Wiretap.Scenario.ManySessions
import Wiretap.Scenario.OneSession
import Wiretap.Scenario.Pipe
import Wiretap.Scenario.Sockets
import Wiretap.Scenario.Supervised
import Wiretap.Scenario.Watch
