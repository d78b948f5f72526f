import TrustedGateway.Lib.Memory
import TrustedGateway.Lib.Run
import TrustedGateway.Lib.Batch
import TrustedGateway.Lib.While
import TrustedGateway.Lib.Ring
import TrustedGateway.Lib.Prog
import TrustedGateway.Lib.Custody
import TrustedGateway.Lib.Chain
import TrustedGateway.Lib.Heap
import TrustedGateway.Lib.Intrusive
import TrustedGateway.Machine
import TrustedGateway.Iovec
import TrustedGateway.Iovec.SkipBegin
import TrustedGateway.EthBuf
import TrustedGateway.EthBuf.Geometry
import TrustedGateway.EthBuf.Linearize
import TrustedGateway.EthBuf.PoolLists
import TrustedGateway.PktQueue
import TrustedGateway.PktQueue.Concurrent
import TrustedGateway.Napi
import TrustedGateway.Vqueue
import TrustedGateway.Vqueue.Interleaving
import TrustedGateway.Virtio
import TrustedGateway.Mmio
import TrustedGateway.Mmio.RingLayout
import TrustedGateway.Mmio.QueueReady
import TrustedGateway.Mmio.Features
import TrustedGateway.Mmio.DeviceInv
import TrustedGateway.Mmio.QueueSize
import TrustedGateway.Mmio.ConfigSpace
import TrustedGateway.Mmio.Reset
import TrustedGateway.VirtioNet
import TrustedGateway.VirtioNet.Chain
import TrustedGateway.Vqueue.HostileWalk
import TrustedGateway.Vqueue.RingExtent
import TrustedGateway.VirtioNet.Receive
import TrustedGateway.VirtioNet.Noninterference
import TrustedGateway.VirtioNet.FlushTx
import TrustedGateway.VirtioNet.Buffers
import TrustedGateway.VirtioNet.Confinement
import TrustedGateway.VirtioNet.Isolation
import TrustedGateway.VirtioNet.Accounting
import TrustedGateway.VirtioNet.Interrupts
import TrustedGateway.VirtioNet.Backlog
import TrustedGateway.Vnic
import TrustedGateway.Vnic.RingPresence
import TrustedGateway.Vnic.PollLoop
import TrustedGateway.Vnic.FineSteps
import TrustedGateway.Vnic.Wakeups
import TrustedGateway.ConfigService.RingBuffer
import TrustedGateway.ConfigService.Responses
import TrustedGateway.ConfigService.Certs
import TrustedGateway.ConfigService.Requests
import TrustedGateway.ConfigService.Delivery
import TrustedGateway.ConfigService.Admins
import TrustedGateway.ConfigService.Aborts
import TrustedGateway.ConfigService.Framing
import TrustedGateway.ConfigService.Sessions
import TrustedGateway.ConfigService.ResponseHeap
import TrustedGateway.ConfigService.AdminList
import TrustedGateway.ConfigService.WebApps
import TrustedGateway.ConfigService.RequestBuffer
import TrustedGateway.ConfigService.RequestSize
import TrustedGateway.Napi.Worker
import TrustedGateway.Napi.Polls
import TrustedGateway.Napi.Wakeup
import TrustedGateway.Napi.Exclusion
import TrustedGateway.Fec.Monitor
import TrustedGateway.Fec.Moves
import TrustedGateway.Fec.Pairing
import TrustedGateway.Fec.Integrity
import TrustedGateway.Fec.Confidentiality
import TrustedGateway.Fec.Driver
import TrustedGateway.Fec.Close
import TrustedGateway.Fec.TxRing
import TrustedGateway.Fec.TxOwnership
import TrustedGateway.PktQueue.Transmit
import TrustedGateway.Fec.TxStall
import TrustedGateway.Fec.Forwarding
import TrustedGateway.Fec.Receive
import TrustedGateway.Router
import TrustedGateway.Router.Effects
import TrustedGateway.Router.Packet
import TrustedGateway.Router.Batch
import TrustedGateway.Router.Forward
import TrustedGateway.Router.Completeness
import TrustedGateway.Router.HeaderAccess
import TrustedGateway.Router.ArpIsolation
import TrustedGateway.Router.ArpLearning
import TrustedGateway.Router.RouteSafety
import TrustedGateway.Router.Config
import TrustedGateway.Router.ConfigGrammar
import TrustedGateway.Router.Init
import TrustedGateway.Router.Sessions
import TrustedGateway.Router.PacketPath
