import Haqq.Ante.AuthzLimiter
import Haqq.Coinomics.Splitting
import Haqq.Eip712.Schema
import Haqq.Eip712.SignDoc
import Haqq.Epochs.Sequence
import Haqq.Erc20.Keeper
import Haqq.Erc20.Peg
import Haqq.Ethiq.CurveIntegral
import Haqq.Ethiq.Interleaving
import Haqq.Ethiq.Restart
import Haqq.Ethiq.Unlocking
import Haqq.Evm.AccessControl
import Haqq.Evm.EstimateGas
import Haqq.Evm.Settlement
import Haqq.Feemarket.Dynamics
import Haqq.LiquidVesting.Backing
import Haqq.LiquidVesting.Conservation
import Haqq.LiquidVesting.Unlocking
import Haqq.Precompiles.Allowances
import Haqq.Precompiles.Applications
import Haqq.Precompiles.Bech32
import Haqq.Precompiles.Coherence
import Haqq.Precompiles.LiquidEvents
import Haqq.Rpc.EventBus
import Haqq.Rpc.EventRoundTrip
import Haqq.Rpc.Filters
import Haqq.Rpc.Indexer
import Haqq.Staking.FundableRuns
import Haqq.Ucdao.Coverage
import Haqq.Ucdao.Ratio
