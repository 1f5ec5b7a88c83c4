import RdtProtocol.Util.StepFn
import RdtProtocol.Util.OrderedSet
import RdtProtocol.Util.Chunks
import RdtProtocol.Shared.Packet
import RdtProtocol.Server.PacketBuilder
import RdtProtocol.Server.PacketBuilderLemmas
import RdtProtocol.Server.Packets
import RdtProtocol.Server.Strategy.Basic
import RdtProtocol.Server.Strategy.GoBackN
import RdtProtocol.Server.Strategy.SelectiveRepeat
import RdtProtocol.Server.Strategy.StopAndWait
import RdtProtocol.Server.Strategy.Mode
import RdtProtocol.Server.Strategy.BasicLemmas
import RdtProtocol.Server.Strategy.SelectiveRepeatLemmas
import RdtProtocol.Server.Strategy.SelectiveRepeatTimer
import RdtProtocol.Server.Strategy.InOrder
import RdtProtocol.Server.Strategy.StopAndWaitLemmas
import RdtProtocol.Server.Strategy.GoBackNLemmas
import RdtProtocol.Server.Strategy.ModeLemmas
import RdtProtocol.Client.Strategy.Basic
import RdtProtocol.Client.Strategy.GoBackN
import RdtProtocol.Client.Strategy.SelectiveRepeat
import RdtProtocol.Client.Strategy.SelectiveRepeatLemmas
import RdtProtocol.Client.Strategy.SelectiveRepeatTrace
import RdtProtocol.Client.Strategy.SelectiveRepeatOrder
import RdtProtocol.Client.Strategy.BasicLemmas
import RdtProtocol.Client.Strategy.GoBackNLemmas
import RdtProtocol.Transfer.Basic
import RdtProtocol.Transfer.ServerLemmas
import RdtProtocol.Transfer.Safety
import RdtProtocol.Server.Strategy.SelectiveRepeatRuns
import RdtProtocol.Transfer.Progress
import RdtProtocol.Transfer.GoBackNSafety
import RdtProtocol.Transfer.Handshake
import RdtProtocol.Transfer.GoBackNProgress
import RdtProtocol.Transfer.Corruption
import RdtProtocol.Transfer.Terminal
import RdtProtocol.Server.Basic
import RdtProtocol.Server.BasicLemmas
import RdtProtocol.Server.Routing
import RdtProtocol.Server.Isolation
import RdtProtocol.Server.Residue
import RdtProtocol.Server.Registration
import RdtProtocol.Server.Sessions
import RdtProtocol.Server.Strategy.ModeSent
import RdtProtocol.Transfer.Regular
import RdtProtocol.Transfer.Written
import RdtProtocol.Transfer.Recovery
import RdtProtocol.Deployment.Basic
import RdtProtocol.Deployment.Refinement
import RdtProtocol.Deployment.Safety
import RdtProtocol.Deployment.Mismatch
import RdtProtocol.Server.Threads
import RdtProtocol.Deployment.Playing
import RdtProtocol.Deployment.Realization
import RdtProtocol.Server.Strategy.Interleaving
import RdtProtocol.Server.Strategy.InterleavingLemmas
import RdtProtocol.Server.Strategy.InterleavingSafety
import RdtProtocol.Server.Strategy.InterleavingRuns
import RdtProtocol.Shared.Checksum
import RdtProtocol.Shared.Corruption
import RdtProtocol.Server.Strategy.ModeRuns
import RdtProtocol.Server.Strategy.SingleWindow
import RdtProtocol.Shared.Format
import RdtProtocol.Server.PacketBuilderRuns
import RdtProtocol.Server.UnstableFile
import RdtProtocol.Server.PacketSender
import RdtProtocol.Util.CyclicSum
import RdtProtocol.Util.Text
import RdtProtocol.Shared.Conversion
import RdtProtocol.Server.Parser
import RdtProtocol.Server.ParserLemmas
import RdtProtocol.Client.Parser
import RdtProtocol.Client.ParserLemmas
import RdtProtocol.Server.PacketSenderLemmas
import RdtProtocol.Client.Strategy.Recvfrom
import RdtProtocol.Client.Strategy.SelectiveRepeatResend
import RdtProtocol.Server.Strategy.GoBackNTimeOut
import RdtProtocol.Server.Strategy.WindowRuns
import RdtProtocol.Server.Strategy.SelectiveRepeatConfig
import RdtProtocol.Server.Strategy.GoBackNTracked
import RdtProtocol.Server.Strategy.SelectiveRepeatTracked
import RdtProtocol.Server.Strategy.ModeTracked
import RdtProtocol.Client.Strategy.ReceiveWindow
import RdtProtocol.Server.Strategy.SelectiveRepeatExpand
import RdtProtocol.Server.Strategy.SelectiveRepeatGrowth
import RdtProtocol.Transfer.Threads
import RdtProtocol.Transfer.Noise
