import Bpc.Controlplane.Conditional
import Bpc.Controlplane.Digest
import Bpc.Controlplane.RaftLog
import Bpc.Controlplane.Serving
import Bpc.Controlplane.SnapshotIndex
import Bpc.Controlplane.Startup
import Bpc.Deploy.Candidates
import Bpc.Deploy.DisableUser
import Bpc.Deploy.DistinctAddresses
import Bpc.Deploy.Family
import Bpc.Deploy.Firewall
import Bpc.Deploy.ForwardDelivery
import Bpc.Deploy.TransportPaths
import Bpc.Migration.Resume
import Bpc.P2P.Isolation
import Bpc.P2P.MuxRuns
import Bpc.P2P.Tracking
import Bpc.Routed.Delivery
import Bpc.Routed.FrameBytes
import Bpc.Routed.Replies
import Bpc.RoutedNode.Convergence
import Bpc.Wgshim.Fallback
import Bpc.Wgshim.TcpFrame
