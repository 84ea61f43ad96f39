import Reiser4Volume.Machine
import Reiser4Volume.Fsx32.Calibrate
import Reiser4Volume.Fsx32.Fibers
import Reiser4Volume.Fsx32.Encoding
import Reiser4Volume.Fsx32.Balance
import Reiser4Volume.Fsx32.Ops
import Reiser4Volume.Fsx32.Relabel
import Reiser4Volume.Fsx32.Grow
import Reiser4Volume.Fsx32.Shrink
import Reiser4Volume.Fsx32.Lookup
import Reiser4Volume.Fsx32.Relocate
import Reiser4Volume.Fsx32.Recovery
import Reiser4Volume.Fsx32.Setup
import Reiser4Volume.Fsx32.Cycle
import Reiser4Volume.Fsx32.Pack
import Reiser4Volume.VolumeOps
import Reiser4Volume.Extent.Tree
import Reiser4Volume.Extent.Migrate
import Reiser4Volume.Extent.Placement
import Reiser4Volume.Extent.Failures
import Reiser4Volume.Extent.Decision
import Reiser4Volume.Extent.Termination
import Reiser4Volume.Extent.Pages
