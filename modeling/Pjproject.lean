import Pjproject.Jbuf.Removal
import Pjproject.Jbuf.Levels
import Pjproject.SdpNeg.Atomicity
import Pjproject.SdpNeg.Version
import Pjproject.Circbuf.Fifo
import Pjproject.Conference.Capacity
import Pjproject.Conference.Levels
import Pjproject.Conference.SlotOrder
import Pjproject.Conference.Sound
import Pjproject.Delaybuf.Bookkeeping
import Pjproject.Pjlib.Strtol
import Pjproject.Rtp.RtcpReport
import Pjproject.Rtp.DecodeBounds
import Pjproject.Rtp.SdesRoundTrip
import Pjproject.Rtp.RtcpStatistics
import Pjproject.SdpNeg.Selection
import Pjproject.SdpNeg.Reoffer
import Pjproject.SdpNeg.Compare
import Pjproject.Sdp.PrintBounds
import Pjproject.Stream.DtmfDelivery
import Pjproject.Stream.Filling
import Pjproject.Stream.Nack
import Pjproject.Hash.Refinement
import Pjproject.Fifobuf.FreeOrder
import Pjproject.Pool.CachingAccounts
import Pjproject.Pool.Growth
import Pjproject.Xml.PrintBounds
import Pjproject.Xml.RoundTrip
import Pjproject.Timer.Firing
import Pjproject.Rbtree.Balance
import Pjproject.PjlibUtil.ScanSafety
import Pjproject.PjlibUtil.Escape
import Pjproject.Json.RoundTrip
import Pjproject.Dns.Bounds
import Pjproject.Dns.Query
import Pjproject.Srv.Completion
import Pjproject.Stun.Discipline
import Pjproject.Stun.Bounds
import Pjproject.Stun.RoundTrip
import Pjproject.Stun.Verify
import Pjproject.Stun.EncodeBounds
import Pjproject.Stun.Prefix
import Pjproject.Stun.SessionCache
import Pjproject.Stun.SessionRequests
import Pjproject.H263.RoundTrip
import Pjproject.Ice.Priority
import Pjproject.Ice.RoleConflict
import Pjproject.Ice.Progress
import Pjproject.Event.Delivery
import Pjproject.Srtp.Agreement
import Pjproject.Srtp.Mandatory
