import RdpServer.Channels.Cam
import RdpServer.Channels.DvcLive
import RdpServer.Channels.Cliprdr
import RdpServer.Channels.Rdpdr
import RdpServer.Channels.Rdpsnd
import RdpServer.Channels.Sndin
import RdpServer.Client.BitmapData
import RdpServer.Client.RleDecoder
import RdpServer.Client.RlgrDecoder
import RdpServer.Clipboard.Answers
import RdpServer.Daemon.AutoLogin
import RdpServer.Daemon.ChannelBinding
import RdpServer.Daemon.Fragments
import RdpServer.Daemon.GfxInstances
import RdpServer.Daemon.Camera
import RdpServer.Daemon.Shadow
import RdpServer.Daemon.Pdu
import RdpServer.Daemon.PrintSound
import RdpServer.Daemon.Segmentation
import RdpServer.Daemon.SurfaceBounds
import RdpServer.Daemon.TileCover
import RdpServer.Daemon.CacheCoherence
import RdpServer.Daemon.UnicodeInput
import RdpServer.Daemon.Uplink
import RdpServer.Ddx.Input
import RdpServer.Sec.NlaSound
import RdpServer.Sec.NtlmChecks
import RdpServer.Sec.Sealing
import RdpServer.Session.Clip.Paste
import RdpServer.Session.Drive.Drives
import RdpServer.Session.Drive.Handles
import RdpServer.Session.Drive.Listing
import RdpServer.Session.Drive.OpenFiles
import RdpServer.Session.Drive.Separation
import RdpServer.Sessionmgr.Authorised
import RdpServer.Sessionmgr.NthashCache
import RdpServer.Sessionmgr.RateLimit
import RdpServer.Sessionmgr.Reconnect
import RdpServer.Wire.PlanarRoundTrip
import RdpServer.Wire.ProgressiveSize
import RdpServer.Wire.ClientInfo
