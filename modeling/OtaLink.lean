import OtaLink.Accepted
import OtaLink.Backlog
import OtaLink.BootCount
import OtaLink.Burst
import OtaLink.Decoders
import OtaLink.FailClosed
import OtaLink.Handles
import OtaLink.InfoLayouts
import OtaLink.Injection
import OtaLink.KeyedUpdate
import OtaLink.LostAck
import OtaLink.Mem.GetInfo
import OtaLink.Mem.Interop
import OtaLink.Mem.MarkValid
import OtaLink.Mem.ReplayCache
import OtaLink.Mem.Segments
import OtaLink.Mem.Version
import OtaLink.Responses
import OtaLink.Resync
import OtaLink.Retry
import OtaLink.UnderAttack
import OtaLink.WriteLog
import OtaLink.FreshAnswers
