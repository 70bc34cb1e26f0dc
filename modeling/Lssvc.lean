import Lssvc.Foundation.Binary64
import Lssvc.Foundation.ByteOrder
import Lssvc.Foundation.Exchange
import Lssvc.Foundation.Ring
import Lssvc.Foundation.Rounds
import Lssvc.Foundation.Runs
import Lssvc.Foundation.Scanner
import Lssvc.Foundation.Slots
import Lssvc.Foundation.Words
import Lssvc.Live.AudioAnchoring
import Lssvc.Live.Broadcast
import Lssvc.Live.ConnectionUsers
import Lssvc.Live.CorrectedTimes
import Lssvc.Live.DeliveryOrder
import Lssvc.Live.GopChoice
import Lssvc.Live.JoinHeaders
import Lssvc.Live.KeyFrameGaps
import Lssvc.Live.LagDecision
import Lssvc.Live.ListedGops
import Lssvc.Live.LiveStream
import Lssvc.Live.Meeting
import Lssvc.Live.PlayerTimestamps
import Lssvc.Live.PlayerWakeup
import Lssvc.Live.Publishing
import Lssvc.Live.Service
import Lssvc.Live.Session
import Lssvc.Live.SessionClear
import Lssvc.Live.SessionMembers
import Lssvc.Live.SessionReaping
import Lssvc.Live.ShownFrames
import Lssvc.Live.SleepingPlayers
import Lssvc.Live.SmoothTimelines
import Lssvc.Live.StreamRing
import Lssvc.Live.ThreadClosing
import Lssvc.Live.TimeCorrector
import Lssvc.Live.ViewerStream
import Lssvc.Live.Viewing
import Lssvc.Mmedia.Acknowledgements
import Lssvc.Mmedia.Amf
import Lssvc.Mmedia.AmfBounds
import Lssvc.Mmedia.AmfEncode
import Lssvc.Mmedia.AmfLayout
import Lssvc.Mmedia.AmfRoundTrip
import Lssvc.Mmedia.AmfStrictArrays
import Lssvc.Mmedia.AmfTrees
import Lssvc.Mmedia.Backlog
import Lssvc.Mmedia.Bytes
import Lssvc.Mmedia.ChunkBuilder
import Lssvc.Mmedia.ChunkParser
import Lssvc.Mmedia.ChunkReception
import Lssvc.Mmedia.ChunkRoundTrip
import Lssvc.Mmedia.ClientNaming
import Lssvc.Mmedia.Commands
import Lssvc.Mmedia.ContextHandlers
import Lssvc.Mmedia.ControlMessages
import Lssvc.Mmedia.Dialogue
import Lssvc.Mmedia.DuplexDialogue
import Lssvc.Mmedia.EmptyBodies
import Lssvc.Mmedia.ExtendedTimestamp
import Lssvc.Mmedia.FrontChunk
import Lssvc.Mmedia.GatherLimit
import Lssvc.Mmedia.HandShake
import Lssvc.Mmedia.HandShakeAgreement
import Lssvc.Mmedia.HandShakeDigest
import Lssvc.Mmedia.HandShakeLink
import Lssvc.Mmedia.HeaderRoom
import Lssvc.Mmedia.MessageLength
import Lssvc.Mmedia.MessagePipe
import Lssvc.Mmedia.NullProperties
import Lssvc.Mmedia.OutgoingQueue
import Lssvc.Mmedia.Packet
import Lssvc.Mmedia.ParserBounds
import Lssvc.Mmedia.ParserFragments
import Lssvc.Mmedia.ParserRuns
import Lssvc.Mmedia.RtmpClient
import Lssvc.Mmedia.Sender
import Lssvc.Mmedia.SentMessages
import Lssvc.Mmedia.ServerHandShake
import Lssvc.Mmedia.SessionName
import Lssvc.Mmedia.StreamAgreement
import Lssvc.Mmedia.StreamIsolation
import Lssvc.Mmedia.Wedged
import Lssvc.Network.ByteQueue
import Lssvc.Network.DirectSend
import Lssvc.Network.EventLoop
import Lssvc.Network.GatherWrite
import Lssvc.Network.IdleTimeout
import Lssvc.Network.LongTimers
import Lssvc.Network.LoopTasks
import Lssvc.Network.MsgBuffer
import Lssvc.Network.ServerConnections
import Lssvc.Network.ShortTimers
import Lssvc.Network.TcpClient
import Lssvc.Network.Timeline
import Lssvc.Network.TimingWheel
import Lssvc.Network.TypedAccess
import Lssvc.Network.UdpQueue
import Lssvc.Network.WheelFaults
import Lssvc.Network.WheelProgram
import Lssvc.Network.WheelTime
import Lssvc.Network.WriteEdges
import Lssvc.Network.WriteReturns
import Lssvc.Utils.LogRotation
import Lssvc.Utils.SplitJoin
import Lssvc.Utils.Strings
