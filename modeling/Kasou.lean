import Kasou.Library.TransitionSystem
import Kasou.Library.Watch
import Kasou.Library.Text
import Kasou.Path
import Kasou.Vm.State
import Kasou.Error
import Kasou.Error.Chain
import Kasou.Types
import Kasou.Vm.Terminal
import Kasou.Vm.History
import Kasou.Library.Mirror
import Kasou.Library.AtomicReplace
import Kasou.MachineIdentifier.Durable
import Kasou.MachineIdentifier.Concurrent
import Kasou.MachineIdentifier.Recovery
import Kasou.MachineIdentifier.Fleet
import Kasou.Dhcp.RoundTrip
import Kasou.Dhcp.Provenance
import Kasou.Dhcp.Recency
import Kasou.Dhcp.Lookup
import Kasou.MacAddress.Grammar
import Kasou.MacAddress.Canonical
import Kasou.Builder.Mixing
import Kasou.Config.Coverage
import Kasou.Config.Identifier
import Kasou.Config.Memory
import Kasou.Vm.Snapshot
import Kasou.Vm.Dispatch
import Kasou.Vm.IpWait
import Kasou.Dhcp.Range
import Kasou.Dhcp.TornRead
import Kasou.Vm.Progress
import Kasou.Vm.Resume
import Kasou.Vm.Lifecycle
import Kasou.Vm.Lifetime
import Kasou.Vm.Queue
import Kasou.Config.Create
import Kasou.Builder.Complete
import Kasou.Dhcp.Store
import Kasou.MacAddress.Framework
import Kasou.Vm.Info
import Kasou.Vm.Discovery
import Kasou.Vm.Subnet
