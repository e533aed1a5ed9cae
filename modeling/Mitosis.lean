import Mitosis.Lib.Pod
import Mitosis.Lib.Memory
import Mitosis.Lib.Heap
import Mitosis.Lib.Simulation
import Mitosis.Lib.Blocks
import Mitosis.Lib.Iterator
import Mitosis.Lib.Future
import Mitosis.Lib.WorkQueue
import Mitosis.Lib.RecvQueue
import Mitosis.Network.Bytes
import Mitosis.Descriptors.Records
import Mitosis.Descriptors.Parent
import Mitosis.Descriptors.ParentRoundTrip
import Mitosis.Descriptors.Flat
import Mitosis.Descriptors.Bounds
import Mitosis.RemoteMapping.X86
import Mitosis.RemoteMapping.X86Crate
import Mitosis.RemoteMapping.PageStructures
import Mitosis.RemoteMapping.PageTable
import Mitosis.RemoteMapping.Refinement
import Mitosis.RemoteMapping.PageMap
import Mitosis.RemoteMapping.Counter
import Mitosis.RemoteMapping.Tree
import Mitosis.RemoteMapping.Iter
import Mitosis.RemoteMapping.Copy
import Mitosis.Network.Rdma
import Mitosis.Network.Datagram
import Mitosis.Network.RpcHeader
import Mitosis.Network.Rpc
import Mitosis.Network.RpcCaller
import Mitosis.Network.RpcSystem
import Mitosis.RpcCallerPool
import Mitosis.RpcService
import Mitosis.RemotePaging
import Mitosis.Prefetcher.Strategies
import Mitosis.Prefetcher.Executor
import Mitosis.Descriptors.Child
import Mitosis.Descriptors.ChildRoundTrip
import Mitosis.Descriptors.Fetch
import Mitosis.Prefetcher.Slots
import Mitosis.ShadowProcess.Vma
import Mitosis.ShadowProcess.Fork
import Mitosis.ShadowProcess.Service
import Mitosis.Syscall.Handler
import Mitosis.Syscall.Resume
import Mitosis.Syscall.Files
