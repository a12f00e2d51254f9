import Mwan.L1Encoding.PacketAtomic
import Mwan.L2Machine.FlowAccounting
import Mwan.L2Machine.PreparedPackets
import Mwan.L3Protocol.Npt.Reversible
import Mwan.L3Protocol.Npt.Selection
import Mwan.L3Protocol.Npt.NativeMapping
import Mwan.L3Protocol.Npt.Published
import Mwan.L3Protocol.Deploy.Evidence
import Mwan.L3Protocol.Deploy.History
import Mwan.L3Protocol.Bgp.Agent
import Mwan.L3Protocol.Watchdog.Failover
import Mwan.L3Protocol.Watchdog.Shutdown
import Mwan.L3Protocol.Watchdog.Rollback
import Mwan.L3Protocol.Watchdog.Snapshots
import Mwan.L3Protocol.Watchdog.Pruning
import Mwan.L3Protocol.Bgp.Shutdown
import Mwan.L3Protocol.Wan.Hysteresis
import Mwan.L3Protocol.Wan.Networkd
import Mwan.L3Protocol.Wan.SourceRule
import Mwan.L3Protocol.Dhcp.Recovery
import Mwan.L3Protocol.Dhcp.OwnedRuns
import Mwan.L3Protocol.Observe.Follow
import Mwan.L3Protocol.Observe.Catchup
import Mwan.L3Protocol.Offload.Counters
import Mwan.L3Protocol.Observe.Alerts
import Mwan.L3Protocol.Bgp.Listeners
