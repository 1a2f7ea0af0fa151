import MiniKV.Core.PyDict
import MiniKV.Json.Value
import MiniKV.Core.Wal
import MiniKV.Core.Store
import MiniKV.Core.Recovery
import MiniKV.Core.LockManager
import MiniKV.Core.Deadlock
import MiniKV.Core.Concurrent
import MiniKV.Distributed.HashRing
import MiniKV.Distributed.RingWalk
import MiniKV.Distributed.RingMembership
import MiniKV.Distributed.Gateway
import MiniKV.Distributed.GatewayRequests
import MiniKV.Distributed.NodeServer
import MiniKV.Distributed.Replication
import MiniKV.Json.Encode
import MiniKV.Json.Decode
import MiniKV.Core.WalFile
import MiniKV.Core.Persistence
import MiniKV.Distributed.Merkle
import MiniKV.Distributed.AntiEntropy
import MiniKV.Distributed.Convergence
import MiniKV.Distributed.Restart
import MiniKV.Server.Router
import MiniKV.Server.SequentialStore
