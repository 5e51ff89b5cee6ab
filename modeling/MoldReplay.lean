import MoldReplay.FixedBytes
import MoldReplay.LoopBody
import MoldReplay.RingWindow
import MoldReplay.Wire
import MoldReplay.Framing
import MoldReplay.ByteOrder
import MoldReplay.PacketBuilder
import MoldReplay.BuilderHistory
import MoldReplay.RetransmissionBuffer
import MoldReplay.ScheduledRuns
import MoldReplay.FairRounds
import MoldReplay.Pacing
import MoldReplay.ResourceTable
import MoldReplay.Handles
import MoldReplay.HandleBalance
import MoldReplay.CountedRuns
import MoldReplay.RacingLookups
import MoldReplay.LookupInstants
import MoldReplay.Downstream
import MoldReplay.Scan
import MoldReplay.NumberedStream
import MoldReplay.Ledger
import MoldReplay.GapFree
import MoldReplay.Heartbeat
import MoldReplay.HeartbeatNumbers
import MoldReplay.Decoder
import MoldReplay.Termination
import MoldReplay.Stopping
import MoldReplay.GreedyPacking
import MoldReplay.WellFormedFiles
import MoldReplay.WholeFile
import MoldReplay.Truncation
import MoldReplay.Threshold
import MoldReplay.OptimalPacking
import MoldReplay.FramedReads
import MoldReplay.Retransmission
import MoldReplay.Rerequest
import MoldReplay.Requests
import MoldReplay.EventLoop
import MoldReplay.GapRecovery
import MoldReplay.Agreement
import MoldReplay.LeadingPhase
import MoldReplay.Disclosure
import MoldReplay.HeartbeatLifecycle
import MoldReplay.ServerRuns
import MoldReplay.ServerLookups
import MoldReplay.TwinServers
import MoldReplay.ServedRequests
import MoldReplay.NumberAgreement
import MoldReplay.ServerLifetimes
import MoldReplay.ServerUnderway
import MoldReplay.ServerShutdown
import MoldReplay.LastRequests
import MoldReplay.ClientView
import MoldReplay.LiveRecovery
import MoldReplay.TestClient
import MoldReplay.ServerDatagrams
import MoldReplay.SessionEnd
import MoldReplay.Silence
import MoldReplay.MessageSizes
import MoldReplay.Server
