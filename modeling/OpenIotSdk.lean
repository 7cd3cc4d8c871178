import OpenIotSdk.Verification.InternalMutex.Wakeup
import OpenIotSdk.Verification.TimedSync.Available
import OpenIotSdk.Verification.SystemClock.Elapsed
import OpenIotSdk.Verification.SystemTimer.Discipline
import OpenIotSdk.Verification.SystemTimer.Callbacks
import OpenIotSdk.Verification.Thread.Lifetime
import OpenIotSdk.Verification.Sleep.Deadline
import OpenIotSdk.Verification.SharedFlags.Isolation
import OpenIotSdk.Verification.SysIo.Transmit
import OpenIotSdk.Verification.SysIo.Receive
import OpenIotSdk.Verification.SysIo.Bulk
import OpenIotSdk.Verification.SysIo.Writers
import OpenIotSdk.Verification.Log.Lines
import OpenIotSdk.Verification.Log.FileName
import OpenIotSdk.Verification.Retarget.Streams
import OpenIotSdk.Verification.Netx.Ownership
import OpenIotSdk.Verification.Netx.Delivery
import OpenIotSdk.Verification.Netx.ReceiveBounds
import OpenIotSdk.Verification.Netx.Balance
import OpenIotSdk.Verification.Netx.LinkState
import OpenIotSdk.Verification.Netx.Wire
import OpenIotSdk.Verification.Lwip.LinkState
import OpenIotSdk.Verification.Lwip.NetworkState
import OpenIotSdk.Verification.Lwip.Startup
import OpenIotSdk.Verification.Lwip.Delivery
import OpenIotSdk.Verification.Lwip.Balance
import OpenIotSdk.Verification.Lwip.PayloadLength
import OpenIotSdk.Verification.Lwip.Wire
import OpenIotSdk.Verification.Lwip.TimeBase
import OpenIotSdk.Verification.Lwip.Multicast
import OpenIotSdk.Verification.CmsisLwip.Sockets
import OpenIotSdk.Verification.Ntp.Timer
import OpenIotSdk.Verification.Ntp.Restart
import OpenIotSdk.Verification.Ntp.Quiet
import OpenIotSdk.Verification.Ntp.Acknowledgement
import OpenIotSdk.Verification.Ntp.Errors
import OpenIotSdk.Verification.Ntp.Recovery
import OpenIotSdk.Verification.Ntp.Time
import OpenIotSdk.Verification.Ntp.Listeners
import OpenIotSdk.Verification.Ntp.Deinit
import OpenIotSdk.Verification.Netsocket.Blocking
import OpenIotSdk.Verification.Netsocket.Family
import OpenIotSdk.Verification.Netsocket.Timeout
import OpenIotSdk.Verification.Netsocket.Reopen
import OpenIotSdk.Verification.Netsocket.Accepted
import OpenIotSdk.Verification.Netsocket.Addresses
import OpenIotSdk.Verification.Netsocket.RoundTrip
import OpenIotSdk.Verification.Netsocket.CanonicalText
import OpenIotSdk.Verification.Netsocket.PrefixText
import OpenIotSdk.Verification.Netsocket.Coherence
import OpenIotSdk.Verification.Netsocket.OwnText
import OpenIotSdk.Verification.Netsocket.ExplicitLength
import OpenIotSdk.Verification.Aws.Connect
import OpenIotSdk.Verification.Aws.ClientProgress
import OpenIotSdk.Verification.KernelLock.Nesting
import OpenIotSdk.Verification.InterruptSpinLock.Masking
import OpenIotSdk.Verification.TlsSocketWrapper.Safety
import OpenIotSdk.Verification.TlsSocketWrapper.Ownership
import OpenIotSdk.Verification.TlsSocketWrapper.Credentials
import OpenIotSdk.Verification.Tfm.CreatedFlag
import OpenIotSdk.Verification.SocketIo.Integrity
import OpenIotSdk.Verification.SocketIo.Allocation
import OpenIotSdk.Verification.SocketIo.Completion
import OpenIotSdk.Verification.SocketIo.Sessions
import OpenIotSdk.Verification.SocketIo.Isolation
import OpenIotSdk.Verification.SocketIo.WouldBlock
import OpenIotSdk.Verification.SocketIo.Silence
import OpenIotSdk.Verification.SocketIo.Open
import OpenIotSdk.Verification.HubClient.Messages
import OpenIotSdk.Verification.TcpSocketConnection.Truth
import OpenIotSdk.Verification.ThreadApi.Registry
import OpenIotSdk.Verification.Platform.Result
import OpenIotSdk.Verification.Platform.Deletion
import OpenIotSdk.Verification.Tickcounter.Accuracy
import OpenIotSdk.Verification.MemoryManager.Integrity
import OpenIotSdk.Verification.MemoryManager.Bounds
import OpenIotSdk.Verification.Littlefs.BlockDevice
