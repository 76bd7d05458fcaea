import HalowBridge.Lib.Machine
import HalowBridge.Lib.Table
import HalowBridge.Lib.Ledger
import HalowBridge.Lib.CString
import HalowBridge.Lib.Threads
import HalowBridge.Dns.Cache
import HalowBridge.Dns.Routing
import HalowBridge.Dns.Retention
import HalowBridge.Dns.Pending
import HalowBridge.Dns.Eviction
import HalowBridge.Dns.Question
import HalowBridge.Halow.Reconnect
import HalowBridge.Config.Boot
import HalowBridge.Config.Segments
import HalowBridge.Config.Isolation
import HalowBridge.Slip.Oversize
import HalowBridge.Slip.Transmit
import HalowBridge.Pktmem.FlowControl
import HalowBridge.Pktmem.Deinit
import HalowBridge.Pktmem.InitBuf
import HalowBridge.Iperf.TcpAccounting
import HalowBridge.Iperf.UdpAgreement
import HalowBridge.Iperf.UdpDeadline
import HalowBridge.Iperf.UdpBounds
import HalowBridge.Iperf.TcpIdle
import HalowBridge.Iperf.TcpBandwidth
import HalowBridge.Iperf.ServerReport
import HalowBridge.Mmnetif.Binding
import HalowBridge.Mbin.RoundTrip
import HalowBridge.Mmutils.Crc
import HalowBridge.Mmutils.RsnInformation
import HalowBridge.Mmutils.MmbufRegion
import HalowBridge.Mmutils.MmbufListContents
import HalowBridge.Mmosal.FailureLog
import HalowBridge.RfTest.Response
import HalowBridge.RfTest.Noise
import HalowBridge.Sdio.Noise
import HalowBridge.Porting.ConvertedFiles
import HalowBridge.Crypto.KeyDerivation
import HalowBridge.Crypto.KeyWrap
import HalowBridge.Wpa.Authenticator
import HalowBridge.Wpa.Reinstallation
