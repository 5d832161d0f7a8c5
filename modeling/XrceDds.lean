import XrceDds.Lib.SerialNumber
import XrceDds.Lib.ByteMemory
import XrceDds.Lib.CutAt
import XrceDds.Client.SeqNum
import XrceDds.Client.ReliableStream
import XrceDds.Client.Microcdr
import XrceDds.Client.Submessage
import XrceDds.Client.OutputSafety
import XrceDds.Client.FragmentPayload
import XrceDds.Client.OutputDrain
import XrceDds.Client.WriteAccess
import XrceDds.Client.ContinuousWrite
import XrceDds.Client.ContinuousAgreement
import XrceDds.Client.PlainWindow
import XrceDds.Client.CounterWindow
import XrceDds.Client.SlotRun
import XrceDds.Client.InputStore
import XrceDds.Client.HeartbeatTimer
import XrceDds.Client.ConfirmDelivery
import XrceDds.Client.ListenTimeout
import XrceDds.Client.Sender
import XrceDds.Client.InputReliableStream
import XrceDds.Client.InputWindow
import XrceDds.Agent.Fragmentation
import XrceDds.Agent.OutputInvariant
import XrceDds.Agent.InputInvariant
import XrceDds.Agent.SessionReset
import XrceDds.Agent.SessionManager
import XrceDds.Agent.Reassembly
import XrceDds.Agent.Processor
import XrceDds.Agent.SubmessageRow
import XrceDds.Agent.ProcessorWalks
import XrceDds.Agent.ProcessorEnds
import XrceDds.Agent.WriteExceptions
import XrceDds.Agent.HandedSubmessages
import XrceDds.Agent.Requester
import XrceDds.Agent.ProxyClient
import XrceDds.Agent.ReuseMatching
import XrceDds.Agent.TokenBucket
import XrceDds.Agent.TokenGrant
import XrceDds.Agent.ReadTask
import XrceDds.Agent.CedGlobalTopic
import XrceDds.Agent.CedTopicManager
import XrceDds.Agent.CedReferences
import XrceDds.Agent.CedMiddleware
import XrceDds.Agent.CedMatching
import XrceDds.Agent.InternalClient
import XrceDds.Protocol.ClientToAgent
import XrceDds.Protocol.AgentToClient
import XrceDds.Protocol.AgentAcknack
import XrceDds.Transport.TcpSend
import XrceDds.Transport.FramedWrite
import XrceDds.Transport.TcpReceive
import XrceDds.Client.InputFragments
import XrceDds.Protocol.ClientAcknack
import XrceDds.Lib.AlignedWindows
import XrceDds.Client.FragmentWindows
import XrceDds.Client.AnnouncedLength
import XrceDds.Protocol.ReceivedLengths
import XrceDds.Agent.Root
import XrceDds.Agent.RecreatedClient
import XrceDds.Agent.HeartbeatSweep
import XrceDds.Transport.TcpConnections
import XrceDds.Agent.FCFSScheduler
import XrceDds.Lib.ReflectedCrc
import XrceDds.Transport.FramedRead
import XrceDds.Transport.FramedTimeout
import XrceDds.Transport.FramingCrc
import XrceDds.Client.NackRun
import XrceDds.Client.Discovery
import XrceDds.Protocol.Ping
import XrceDds.Lib.SerialFilter
import XrceDds.Client.BestEffortStream
import XrceDds.Protocol.BestEffort
import XrceDds.Lib.SerialOrder
import XrceDds.Agent.SeqNumOperators
import XrceDds.Protocol.SequenceLaws
import XrceDds.Lib.RingBuffer
import XrceDds.Transport.FramingRing
import XrceDds.Lib.Monitor
import XrceDds.Agent.SharedMutex
import XrceDds.Protocol.SubmessageBoundaries
import XrceDds.Protocol.AcknackSafety
import XrceDds.Protocol.DrainedStream
import XrceDds.Transport.FramedCodec
import XrceDds.Transport.FramedResume
import XrceDds.Protocol.Recovery
import XrceDds.Lib.AlignedCodec
import XrceDds.Protocol.XrceTypes
import XrceDds.Client.UcdrSerializer
import XrceDds.Client.SerializeRequests
import XrceDds.Client.TransportLocator
import XrceDds.Agent.InfoMessage
import XrceDds.Protocol.PayloadAgreement
import XrceDds.Protocol.DiscoveryAgreement
import XrceDds.Protocol.TimeSync
import XrceDds.Client.RequestStatus
import XrceDds.Protocol.SessionHandshake
import XrceDds.Agent.DeserializeRequests
import XrceDds.Agent.Server
