import Aptos.Rust.Core
import Aptos.Rust.Slice
import Aptos.Rust.Str
import Aptos.Consensus.Types
import Aptos.Consensus.MetadataBackend
import Aptos.Consensus.Heuristic
import Aptos.Consensus.Selection
import Aptos.Consensus.LeaderReputation
import Aptos.Consensus.Fairness
import Aptos.Consensus.Agreement
import Aptos.Framework.Bcs
import Aptos.Framework.TransactionScriptBuilder
import Aptos.Config.NodeConfig
import Aptos.Indexer.TransactionProcessor
import Aptos.Api.Transactions
import Aptos.Forge.Swarm
