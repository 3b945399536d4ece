import Fabric.Ledger.CombinedScan
import Fabric.Ledger.IdStore
import Fabric.Ledger.QueryShape
import Fabric.Ledger.FalseConflicts
import Fabric.Ledger.ValidatorPanics
import Fabric.Ledger.StateCouchDB
import Fabric.Ledger.CommittedState
import Fabric.Peer.VerifyBlock
import Fabric.Peer.VerifySignature
import Fabric.Peer.CCPackage
import Fabric.Committer.MsgValidation
import Fabric.Committer.Deployment
import Fabric.Committer.InvokedChaincode
import Fabric.Committer.UpgradeConflicts
import Fabric.ConfigTx.ConfigMap
import Fabric.ConfigTx.OverlappingCalls
import Fabric.ConfigTx.Panics
import Fabric.Orderer.StrandedMessages
import Fabric.Orderer.DeliverAccess
import Fabric.Orderer.HashChain
import Fabric.Gossip.DiscoverySafety
import Fabric.Gossip.Disclosure
import Fabric.Gossip.StateRequests
import Fabric.Gossip.BackPressure
import Fabric.Gossip.ExpiringStore
import Fabric.Gossip.OfflinePeers
import Fabric.Policies.Monotonicity
import Fabric.Policies.ImplicitMeta
import Fabric.MSP.Setup
import Fabric.BCCSP.KeyDeriv
