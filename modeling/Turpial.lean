import Turpial.Lib.Table
import Turpial.Lib.Run
import Turpial.Lib.Acyclic
import Turpial.Lib.Loop
import Turpial.Lib.Slots
import Turpial.Lib.Memory
import Turpial.Lib.Lease
import Turpial.Lib.Mailbox
import Turpial.Lib.Threads
import Turpial.Lib.Ledger
import Turpial.Lib.CommonPrefix
import Turpial.Lib.Simulation
import Turpial.Rfc5444.GeneratorTheorems
import Turpial.Aodvv2.McMsgTheorems
import Turpial.Aodvv2.McMsgLeaseTheorems
import Turpial.Aodvv2.ReaderTheorems
import Turpial.Aodvv2.HandlerTheorems
import Turpial.Aodvv2.CodecTheorems
import Turpial.Aodvv2.RouteTheorems
import Turpial.Aodvv2.MetricTheorems
import Turpial.Aodvv2.IndependenceTheorems
import Turpial.Aodvv2.RcsTheorems
import Turpial.Aodvv2.LrsRunTheorems
import Turpial.Aodvv2.LrsLifeTheorems
import Turpial.Aodvv2.DiscoveryTheorems
import Turpial.Aodvv2.LoopTheorems
import Turpial.Aodvv2.LrsPassTheorems
import Turpial.Aodvv2.ImprovementTheorems
import Turpial.Aodvv2.BufferTheorems
import Turpial.Aodvv2.CallTheorems
import Turpial.Aodvv2.RelayTheorems
import Turpial.Aodvv2.HopLimitTheorems
import Turpial.Aodvv2.ReferenceTheorems
import Turpial.Aodvv2.RequestTheorems
import Turpial.Aodvv2.ShellTheorems
import Turpial.Aodvv2.SeqnumThreads
import Turpial.Aodvv2.SeqnumTheorems
import Turpial.Aodvv2.RcsThreads
import Turpial.Aodvv2.PacketRunTheorems
import Turpial.Aodvv2.FloodTheorems
import Turpial.Aodvv2.ReachTheorems
import Turpial.Aodvv2.PathTheorems
import Turpial.Vaina.FormatTheorems
import Turpial.Vaina.ReplyTheorems
import Turpial.Vaina.RetransmissionTheorems
import Turpial.Vaina.ClientTheorems
import Turpial.Bq27441.RegisterTheorems
import Turpial.Bq27441.PacingTheorems
import Turpial.Storage.NvsTheorems
import Turpial.Storage.WifiSettings
