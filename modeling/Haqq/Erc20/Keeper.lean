import Haqq.Chain.Bank
import Haqq.Chain.State
import Haqq.Lib.Run

/-!
# Token pairs and their conversion

`x/erc20`: converting tokens of a native ERC-20 pair moves them to the module account and mints
coins; converting coins burns them and moves the tokens back, for IBC packets only.  A transfer of
`x/ibc/transfer` converts tokens if the sender has too few coins.  The EVM and the transfer
application beneath the middleware are parameters.

An Ethereum transaction runs on state objects (`Evm.Objects`) that are written to the store when it
ends.  The ICS-20 precompile makes a transfer on a branch of the store: the objects are written to
the branch before the call, but not read again after it.
-/

namespace Haqq.Erc20

open Lib Function

/-! ## Pairs -/

inductive Owner
  | unspecified
  | module
  | external
  deriving DecidableEq

abbrev PairId := Address × Denom

structure TokenPair where
  erc20Address : Address
  denom : Denom
  enabled : Bool
  contractOwner : Owner
  deriving DecidableEq

def TokenPair.getID (pair : TokenPair) : PairId := (pair.erc20Address, pair.denom)

def TokenPair.isNativeCoin (pair : TokenPair) : Bool := pair.contractOwner == .module

def TokenPair.isNativeERC20 (pair : TokenPair) : Bool := pair.contractOwner == .external

def newTokenPair (erc20Address : Address) (denom : Denom) (contractOwner : Owner) : TokenPair :=
  ⟨erc20Address, denom, true, contractOwner⟩

/-- By a hex address or else by a denomination. -/
inductive Token
  | contract (addr : Address)
  | denom (denom : Denom)

/-- `W` is the state of the contracts. -/
structure State (W : Type) where
  enableErc20 : Bool
  tokenPairs : PairId → Option TokenPair
  erc20Map : Address → Option PairId
  denomMap : Denom → Option PairId
  denomMetadata : Finset Denom
  sendEnabled : Denom → Bool
  evm : W

inductive Error
  | keeper (err : KeeperError)
  | erc20Disabled (reason : String)
  /-- `byId`: the token has no id, or else the id has no pair. -/
  | tokenPairNotFound (token : Token) (byId : Bool)
  | tokenPairDisabled (token : Token)
  | sendDisabled (token : Token)
  | unauthorized (receiver : Address)
  | nativeConversionDisabled
  | undefinedOwner
  | balanceOf (account contract : Address) (when_ : String)
  | evmCall
  | abiUnpack
  | logic (reason : String)
  | balanceInvariance (expected actual : Nat)
  | unexpectedEvent
  | tokenPairAlreadyExists (contract : Address)
  | internalTokenPair (reason : String)
  | invalidMetadata (contract : Address)
  | invalidSigner (expected actual : Address)
  | invalidAmount
  | invalidAddress (text : String)
  | cannotUnmarshal
  | invalidIBC
  | extension (denom : Denom)
  /-- The transfer application answered with an error acknowledgement. -/
  | errorAcknowledgement
  | panic

abbrev Erc20M (W : Type) := EStateM Error (Store (State W))

/-! ## What the module is connected to -/

structure TransferResult where
  value : Option Bool
  approval : Bool

structure ERC20Data where
  name : String
  symbol : String
  decimals : Nat

structure Evm (W : Type) where
  /-- `balanceOf`, if the call succeeds and returns a number. -/
  balanceOf : W → (contract account : Address) → Option Nat
  /-- A call of `transfer` by the first address that is committed, if it does not fail. -/
  transfer : (sender contract receiver : Address) → Nat → W → Option (TransferResult × W)
  isContract : W → Address → Bool
  queryERC20 : W → Address → Option ERC20Data
  /-- The state objects of a transaction, with all that its code wrote. -/
  Objects : Type
  fresh : Objects
  Input : Type
  /-- The code reads the objects and, where they have nothing, the state before the transaction. -/
  execute : Input → W → Objects → Objects
  /-- Writes what is dirty in the objects. -/
  commit : Objects → W → W

/-- An amount that is no number is nil. -/
structure PacketData where
  denom : Denom
  amount : Option Int
  sender : String
  receiver : String

structure Packet where
  sourcePort : String
  sourceChannel : String
  destinationPort : String
  destinationChannel : String
  data : Option PacketData

structure MsgTransfer where
  denom : Denom
  amount : Nat
  sender : Address
  receiver : String

/-- It moves coins, and mints and burns the vouchers of foreign ones. -/
structure TransferApp (W : Type) where
  transfer : MsgTransfer → Erc20M W Unit
  /-- The acknowledgement, none for a packet that is forwarded: whether it is a success. -/
  onRecvPacket : Packet → Erc20M W (Option Bool)
  onAcknowledgementPacket : Packet → (success : Bool) → Erc20M W Unit
  onTimeoutPacket : Packet → Erc20M W Unit

structure Config (W : Type) extends Env where
  moduleAddress : Address
  authority : Address
  bondDenom : Denom
  evm : Evm W
  transferApp : TransferApp W
  /-- The checksummed hex text of an address. -/
  hex : Address → String
  hex_injective : Injective hex
  /-- `HexToAddress`, if the text of a denomination is a hex address. -/
  hexAddress : Denom → Option Address
  /-- `Metadata.Validate` of the metadata made from a token's data. -/
  validMetadata : Address → ERC20Data → Bool
  isModuleAccount : Option AuthAccount → Bool
  isEVMChannel : String → Bool
  /-- `GetHaqqAddressFromBech32`, which takes any prefix. -/
  haqqAddressFromBech32 : String → Option Address
  accAddressFromBech32 : String → Option Address
  /-- The denomination of `GetReceivedCoin`. -/
  receivedDenom : Packet → Denom → Denom
  /-- The denomination of `GetSentCoin`. -/
  sentDenom : Denom → Denom
  isBaseDenomFromSourceChain : Denom → Bool
  /-- `GetIBCDenomAddress` of a voucher. -/
  ibcDenomAddress : Denom → Option Address

def Config.atTime {W : Type} (cfg : Config W) (now : Int) : Config W :=
  { cfg with blockTime := now }

variable {W : Type} (cfg : Config W)

def createDenom (contract : Address) : Denom := .other ("erc20/" ++ cfg.hex contract)

def startsWith (start : String) : Denom → Bool
  | .other name => start.toList.isPrefixOf name.toList
  | _ => false

def liftKeeper {α : Type} (x : KeeperM (State W) α) : Erc20M W α := EStateM.adaptExcept .keeper x

def modifyErc20 (f : State W → State W) : Erc20M W Unit :=
  modify fun st => { st with modules := f st.modules }

def getTokenPairID (erc20 : State W) : Token → Option PairId
  | .contract addr => erc20.erc20Map addr
  | .denom denom => erc20.denomMap denom

def tokenOf (denom : Denom) : Token :=
  match cfg.hexAddress denom with
  | some addr => .contract addr
  | none => .denom denom

def getTokenPair (erc20 : State W) (id : Option PairId) : Option TokenPair :=
  id.bind erc20.tokenPairs

def setTokenPair (pair : TokenPair) : Erc20M W Unit :=
  modifyErc20 fun erc20 =>
    { erc20 with tokenPairs := update erc20.tokenPairs pair.getID (some pair) }

def setToken (pair : TokenPair) : Erc20M W Unit := do
  setTokenPair pair
  modifyErc20 fun erc20 =>
    { erc20 with denomMap := update erc20.denomMap pair.denom (some pair.getID) }
  modifyErc20 fun erc20 =>
    { erc20 with erc20Map := update erc20.erc20Map pair.erc20Address (some pair.getID) }

def deleteTokenPair (pair : TokenPair) : Erc20M W Unit :=
  modifyErc20 fun erc20 => { erc20 with
    tokenPairs := update erc20.tokenPairs pair.getID none
    erc20Map := update erc20.erc20Map pair.erc20Address none
    denomMap := update erc20.denomMap pair.denom none }

def requireTokenPair (token : Token) : Erc20M W TokenPair := do
  let erc20 := (← get).modules
  let id ← ofOption (.tokenPairNotFound token true) (getTokenPairID erc20 token)
  ofOption (.tokenPairNotFound token false) (getTokenPair erc20 (some id))

/-! ## Converting tokens -/

/-- The checks before a conversion. -/
def mintingEnabled (sender receiver : Address) (token : Token) : Erc20M W TokenPair := do
  ensure ((← get).modules.enableErc20 = true)
    (.erc20Disabled "module is currently disabled by governance")
  let pair ← requireTokenPair token
  ensure (pair.enabled = true) (.tokenPairDisabled token)
  ensure (cfg.blocked receiver = false) (.unauthorized receiver)
  ensure (sender = receiver ∨ (← get).modules.sendEnabled pair.denom = true) (.sendDisabled token)
  return pair

def balanceOf (contract account : Address) (when_ : String) : Erc20M W Nat := do
  ofOption (.balanceOf account contract when_)
    (cfg.evm.balanceOf (← get).modules.evm contract account)

/-- The contract has to return `true`. -/
def callTransfer (sender contract receiver : Address) (amount : Nat) (failed : String) :
    Erc20M W TransferResult := do
  let (res, evm) ← ofOption .evmCall
    (cfg.evm.transfer sender contract receiver amount (← get).modules.evm)
  modifyErc20 fun erc20 => { erc20 with evm := evm }
  let value ← ofOption .abiUnpack res.value
  ensure (value = true) (.logic failed)
  return res

def monitorApprovalEvent (res : TransferResult) : Erc20M W Unit :=
  ensure (res.approval = false) .unexpectedEvent

/-- Escrows the tokens with the module and mints as many coins; both balances are compared with
what they were before. -/
def convertERC20IntoCoinsForNativeToken (pair : TokenPair) (amount : Nat)
    (receiver sender : Address) : Erc20M W Unit := do
  let contract := pair.erc20Address
  let coins : Coins := Tally.single pair.denom amount
  let balanceCoin := ((← get).bank.balance receiver).get pair.denom
  let balanceToken ← balanceOf cfg contract cfg.moduleAddress
    "before convertERC20IntoCoinsForNativeToken"
  let res ← callTransfer cfg sender contract cfg.moduleAddress amount "failed to execute transfer"
  let balanceTokenAfter ← balanceOf cfg contract cfg.moduleAddress
    "after convertERC20IntoCoinsForNativeToken"
  ensure (balanceTokenAfter = balanceToken + amount)
    (.balanceInvariance (balanceToken + amount) balanceTokenAfter)
  liftKeeper (Bank.mintCoins cfg.moduleAddress coins)
  liftKeeper (Bank.sendCoinsFromModuleToAccount cfg.toEnv cfg.moduleAddress receiver coins)
  let balanceCoinAfter := ((← get).bank.balance receiver).get pair.denom
  ensure (balanceCoinAfter = balanceCoin + amount)
    (.balanceInvariance (balanceCoin + amount) balanceCoinAfter)
  monitorApprovalEvent res

/-- The pair of a contract that is gone is deleted, which is no error. -/
def convertERC20 (contractAddress : Address) (amount : Nat) (receiver sender : Address) :
    Erc20M W Unit := do
  let pair ← mintingEnabled cfg sender receiver (.contract contractAddress)
  if pair.isNativeERC20 then do
    if cfg.evm.isContract (← get).modules.evm pair.erc20Address then
      convertERC20IntoCoinsForNativeToken cfg pair amount receiver sender
    else deleteTokenPair pair
  else if pair.isNativeCoin then throw .nativeConversionDisabled
  else throw .undefinedOwner

/-- Escrows the coins, pays out as many tokens of the module, and burns the coins. -/
def convertCoinNativeERC20 (pair : TokenPair) (amount : Int) (receiver sender : Address) :
    Erc20M W Unit := do
  if amount ≤ 0 then pure ()
  else do
    let contract := pair.erc20Address
    let balanceToken ← balanceOf cfg contract receiver "before ConvertCoinNativeERC20"
    let coins : Coins := Tally.single pair.denom amount.toNat
    liftKeeper (Bank.sendCoinsFromAccountToModule cfg.toEnv sender cfg.moduleAddress coins)
    let res ← callTransfer cfg cfg.moduleAddress contract receiver amount.toNat
      "failed to execute unescrow tokens from user"
    let balanceTokenAfter ← balanceOf cfg contract receiver "after ConvertCoinNativeERC20"
    ensure (balanceTokenAfter = balanceToken + amount.toNat)
      (.balanceInvariance (balanceToken + amount.toNat) balanceTokenAfter)
    liftKeeper (Bank.burnCoins cfg.moduleAddress coins)
    monitorApprovalEvent res

/-- The denomination must be new to the bank and to the module. -/
def createCoinMetadata (contract : Address) : Erc20M W Denom := do
  let erc20 := (← get).modules
  let erc20Data ← ofOption .evmCall (cfg.evm.queryERC20 erc20.evm contract)
  ensure (createDenom cfg contract ∉ erc20.denomMetadata)
    (.internalTokenPair "denom metadata already registered")
  ensure ((erc20.denomMap (createDenom cfg contract)).isNone = true)
    (.internalTokenPair ("coin denomination already registered: " ++ erc20Data.name))
  ensure (cfg.validMetadata contract erc20Data = true) (.invalidMetadata contract)
  modifyErc20 fun erc20 =>
    { erc20 with denomMetadata := insert (createDenom cfg contract) erc20.denomMetadata }
  return createDenom cfg contract

def registerERC20 (contract : Address) : Erc20M W Unit := do
  ensure (((← get).modules.erc20Map contract).isNone = true) (.tokenPairAlreadyExists contract)
  let name ← createCoinMetadata cfg contract
  setToken (newTokenPair contract name .external)

def toggleConversion (token : Token) : Erc20M W Unit := do
  let pair ← requireTokenPair token
  setTokenPair { pair with enabled := !pair.enabled }

def validateAuthority (authority : Address) : Erc20M W Unit :=
  ensure (authority = cfg.authority) (.invalidSigner cfg.authority authority)

/-- The pair of a voucher; the precompile is left out. -/
def registerERC20Extension (denom : Denom) : Erc20M W Unit := do
  let address ← ofOption (.extension denom) (cfg.ibcDenomAddress denom)
  setToken (newTokenPair address denom .module)

/-- An error is an error acknowledgement. -/
def onRecvPacket (packet : Packet) : Erc20M W Unit := do
  if (← get).modules.enableErc20 = false then pure ()
  else do
    let data ← ofOption .cannotUnmarshal packet.data
    let sender ← ofOption (.invalidAddress data.sender) (cfg.haqqAddressFromBech32 data.sender)
    let recipient ←
      ofOption (.invalidAddress data.receiver) (cfg.haqqAddressFromBech32 data.receiver)
    ensure (¬ (sender = recipient ∧ cfg.isEVMChannel packet.destinationChannel = false)) .invalidIBC
    let st ← get
    let denom := cfg.receivedDenom packet data.denom
    if cfg.isModuleAccount (st.accounts recipient) then pure ()
    else if startsWith "factory/" data.denom then pure ()
    else if denom = cfg.bondDenom then pure ()
    else
      match getTokenPair st.modules (getTokenPairID st.modules (tokenOf cfg denom)) with
      | none =>
        if startsWith "ibc/" denom && cfg.isBaseDenomFromSourceChain data.denom then
          registerERC20Extension cfg denom
        else pure ()
      | some pair =>
        if pair.isNativeERC20 && pair.enabled then
          convertCoinNativeERC20 cfg pair
            ((st.bank.balance recipient).get denom) recipient recipient
        else pure ()

/-- Coins that a failed transfer gives back to the sender are converted to tokens. -/
def convertCoinToERC20FromPacket (data : PacketData) : Erc20M W Unit := do
  let sender ← ofOption (.invalidAddress data.sender) (cfg.accAddressFromBech32 data.sender)
  let st ← get
  match getTokenPair st.modules (getTokenPairID st.modules (tokenOf cfg data.denom)) with
  | none => pure ()
  | some pair =>
    if pair.isNativeCoin then pure ()
    else if pair.isNativeERC20 then do
      if st.modules.enableErc20 = false ∨
          (st.modules.denomMap (cfg.sentDenom data.denom)).isNone = true then pure ()
      else if cfg.isModuleAccount (st.accounts sender) then pure ()
      else do
        let amount ← ofOption .panic data.amount
        convertCoinNativeERC20 cfg pair amount sender sender
    else pure ()

/-! ## Transfers -/

/-- `strings.TrimPrefix` of the name of the module. -/
def trimModuleName : Denom → Denom
  | .other name => .other
    (if startsWith "erc20/" (.other name) then String.ofList (name.toList.drop 6) else name)
  | denom => denom

/-- The pair of a denomination, if it can be converted. -/
def transferPair (erc20 : State W) (denom : Denom) : Option TokenPair :=
  (getTokenPair erc20 (getTokenPairID erc20 (tokenOf cfg (trimModuleName denom)))).filter
    fun pair => pair.enabled && erc20.enableErc20

/-- Only what the sender lacks of the coins is converted. -/
def transfer (msg : MsgTransfer) : Erc20M W Unit := do
  let st ← get
  match transferPair cfg st.modules msg.denom with
  | none => cfg.transferApp.transfer msg
  | some pair => do
    let balance := (st.bank.balance msg.sender).get pair.denom
    if pair.isNativeERC20 = true ∧ balance < msg.amount then
      convertERC20 cfg pair.erc20Address (msg.amount - balance) msg.sender msg.sender
    else pure ()
    cfg.transferApp.transfer { msg with denom := pair.denom }

/-- What a transaction does in the order of its calls, without those that are reverted. -/
inductive Frame (Input : Type)
  | code (input : Input)
  | ics20 (msg : MsgTransfer)

def withEvm (st : Store (State W)) (evm : W) : Store (State W) :=
  { st with modules := { st.modules with evm := evm } }

/-- The precompile works on a branch of the store, which an error resets. -/
def Frame.run (start : W) (s : cfg.evm.Objects × Store (State W)) :
    Frame cfg.evm.Input → cfg.evm.Objects × Store (State W)
  | code input => (cfg.evm.execute input start s.1, s.2)
  | ics20 msg =>
    match (transfer cfg msg).run (withEvm s.2 (cfg.evm.commit s.1 s.2.modules.evm)) with
    | .ok _ st' => (s.1, st')
    | .error _ _ => s

/-- The branch is written to the store, and then the objects. -/
def ethereumTx (frames : List (Frame cfg.evm.Input)) (st : Store (State W)) : Store (State W) :=
  let s := Run.after (Frame.run cfg st.modules.evm) (cfg.evm.fresh, st) frames
  withEvm s.2 (cfg.evm.commit s.1 s.2.modules.evm)

/-! ## Messages -/

inductive Msg (Input : Type)
  | convertERC20 (contractAddress : Address) (amount : Int) (receiver sender : Address)
  | registerERC20 (authority : Address) (erc20Addresses : List Address)
  | toggleConversion (authority : Address) (token : Token)
  | updateParams (authority : Address) (enableErc20 : Bool)
  | send (fromAddress toAddress : Address) (amount : Coins)
  | ethereumTx (frames : List (Frame Input))
  | transfer (msg : MsgTransfer)
  | recvPacket (packet : Packet)
  | acknowledgement (packet : Packet) (success : Bool)
  | timeout (packet : Packet)

/-- Every way in which the coins and tokens of a pair can move. -/
def Msg.handle : Msg cfg.evm.Input → Erc20M W Unit
  | convertERC20 contractAddress amount receiver sender => do
    ensure (0 < amount) .invalidAmount
    Erc20.convertERC20 cfg contractAddress amount.toNat receiver sender
  | registerERC20 authority erc20Addresses => do
    ensure ((← get).modules.enableErc20 = true)
      (.erc20Disabled "registration is currently disabled by governance")
    validateAuthority cfg authority
    erc20Addresses.forM (Erc20.registerERC20 cfg)
  | toggleConversion authority token => do
    ensure ((← get).modules.enableErc20 = true)
      (.erc20Disabled "toggle conversion is currently disabled by governance")
    validateAuthority cfg authority
    Erc20.toggleConversion token
  | updateParams authority enableErc20 => do
    validateAuthority cfg authority
    modifyErc20 fun erc20 => { erc20 with enableErc20 := enableErc20 }
  | send fromAddress toAddress amount => do
    ensure (cfg.blocked toAddress = false) (.unauthorized toAddress)
    liftKeeper (Bank.sendCoins cfg.toEnv fromAddress toAddress amount)
  | ethereumTx frames => modify (Erc20.ethereumTx cfg frames)
  | transfer msg => Erc20.transfer cfg msg
  | recvPacket packet => do
    match ← cfg.transferApp.onRecvPacket packet with
    | none => pure ()
    | some false => throw .errorAcknowledgement
    | some true => onRecvPacket cfg packet
  | acknowledgement packet success => do
    let data ← ofOption .cannotUnmarshal packet.data
    cfg.transferApp.onAcknowledgementPacket packet success
    if success then pure () else convertCoinToERC20FromPacket cfg data
  | timeout packet => do
    let data ← ofOption .cannotUnmarshal packet.data
    cfg.transferApp.onTimeoutPacket packet
    convertCoinToERC20FromPacket cfg data

/-- A message that fails is rolled back; so is a packet with an error acknowledgement. -/
def step (st : Store (State W)) (tx : Tx (Msg cfg.evm.Input)) : Store (State W) :=
  match (tx.msg.handle (cfg.atTime tx.blockTime)).run st with
  | .ok _ st' => st'
  | .error _ _ => st

end Haqq.Erc20
