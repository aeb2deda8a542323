import Ns3Fancy.Lts.Run
import Ns3Fancy.Loop.Counter
import Ns3Fancy.Text.Decimals
import Ns3Fancy.Clock.Heartbeat
import Ns3Fancy.Ring.Window
import Ns3Fancy.Ibf.Filter
import Ns3Fancy.Session.Protocol
import Ns3Fancy.Session.Lockstep
import Ns3Fancy.Session.Lossy
import Ns3Fancy.Session.Discipline
import Ns3Fancy.Session.Ledger
import Ns3Fancy.Session.Progress
import Ns3Fancy.Session.Accounts
import Ns3Fancy.Buffer.Bytes
import Ns3Fancy.Switch.FancyHeader
import Ns3Fancy.Switch.Config
import Ns3Fancy.Switch.FlowKey
import Ns3Fancy.Switch.Tree
import Ns3Fancy.Switch.History
import Ns3Fancy.Switch.Zoom
import Ns3Fancy.Switch.Exchange
import Ns3Fancy.Switch.Rounds
import Ns3Fancy.Switch.Selection
import Ns3Fancy.Switch.Levels
import Ns3Fancy.Switch.Completeness
import Ns3Fancy.Switch.SoftFailure
import Ns3Fancy.Switch.Collisions
import Ns3Fancy.Switch.Packet
import Ns3Fancy.Switch.Port
import Ns3Fancy.Switch.Pipeline
import Ns3Fancy.Switch.Standard
import Ns3Fancy.Switch.HeaderTransfer
import Ns3Fancy.Switch.CounterTree
import Ns3Fancy.Switch.Limits
import Ns3Fancy.Switch.Beyond
import Ns3Fancy.Switch.Admitted
import Ns3Fancy.Switch.ControlReroute
import Ns3Fancy.Switch.Transparency
import Ns3Fancy.Switch.Isolation
import Ns3Fancy.Switch.PortKind
import Ns3Fancy.Switch.Probe
import Ns3Fancy.Link.System
import Ns3Fancy.Link.Machine
import Ns3Fancy.Link.Message
import Ns3Fancy.Link.Moves
import Ns3Fancy.Link.Receive
import Ns3Fancy.Link.Packets
import Ns3Fancy.Link.Simulation
import Ns3Fancy.Link.Discipline
import Ns3Fancy.Link.Histories
import Ns3Fancy.Link.Progress
import Ns3Fancy.Link.Numbers
import Ns3Fancy.Link.Filter
import Ns3Fancy.Link.Logs
import Ns3Fancy.Link.Lockstep
import Ns3Fancy.Link.Detection
import Ns3Fancy.Link.Accounting
import Ns3Fancy.Link.Completeness
import Ns3Fancy.Link.ControlLoss
import Ns3Fancy.Link.AckRecovery
import Ns3Fancy.Link.Probes
import Ns3Fancy.Link.Senders
import Ns3Fancy.Link.Timed
import Ns3Fancy.LossRadar.Meter
import Ns3Fancy.LossRadar.Controller
import Ns3Fancy.LossRadar.Link
import Ns3Fancy.LossRadar.Batches
import Ns3Fancy.LossRadar.Losses
import Ns3Fancy.LossRadar.Reports
import Ns3Fancy.LossRadar.Deadlines
import Ns3Fancy.LossRadar.Network
import Ns3Fancy.NetSeer.Port
import Ns3Fancy.NetSeer.EventCache
import Ns3Fancy.NetSeer.Network
import Ns3Fancy.NetSeer.Channel
import Ns3Fancy.NetSeer.Tagging
import Ns3Fancy.NetSeer.Losses
import Ns3Fancy.NetSeer.Wire
import Ns3Fancy.NetSeer.Unchanged
import Ns3Fancy.SwitchNat.Translation
import Ns3Fancy.SwitchNat.Replies
import Ns3Fancy.Switch.FlowTables
import Ns3Fancy.FlowKeys
import Ns3Fancy.NetDevice.Forwarding
import Ns3Fancy.NetDevice.Replication
import Ns3Fancy.Lts.Chain
import Ns3Fancy.Apps.RateSend
import Ns3Fancy.Apps.FailedPrefixes
import Ns3Fancy.Apps.Replay
import Ns3Fancy.ErrorModel.Flow
import Ns3Fancy.Text.Ipv4Address
import Ns3Fancy.Traffic.FlowFile
import Ns3Fancy.Traffic.Statistics
import Ns3Fancy.Search.LowerBound
import Ns3Fancy.Traffic.Nearest
import Ns3Fancy.Graph.NextHop
import Ns3Fancy.NetDevice.Learning
import Ns3Fancy.NetDevice.Lan
import Ns3Fancy.NetDevice.Delivery
import Ns3Fancy.NetDevice.Confined
import Ns3Fancy.Link.Renaming
import Ns3Fancy.Link.Hop
import Ns3Fancy.Link.Network
import Ns3Fancy.Link.Fabric
import Ns3Fancy.Link.FabricAccounting
import Ns3Fancy.Link.Conservation
