import Mangrove.Handles.Refinement
import Mangrove.Identity.Revocation
import Mangrove.Mgfs.Tombstone
import Mangrove.Net.Delivery
import Mangrove.Net.Framing
import Mangrove.Net.Renewal
import Mangrove.Net.Resolver
import Mangrove.Sched.Mutex
import Mangrove.Shoot.Command
import Mangrove.Shoot.History
import Mangrove.Storage.Partitions
import Mangrove.Time.Calendar
import Mangrove.Usb.Ring
import Mangrove.Utf8.Names
import Mangrove.Vfs.Path
import Mangrove.Vmm.Bootstrap
import Mangrove.Vmm.Isolation
