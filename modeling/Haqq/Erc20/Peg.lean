import Haqq.Erc20.Keeper

/-!
# The peg of native ERC-20 tokens

If the contract of a native pair is a standard token, the supply of the pair's coin should be at
most what the module account has of the token.  An Ethereum transaction can break this: the tokens
that the ICS-20 precompile converts are credited to the module account on the branch of the store,
and if the code of the transaction wrote the balance of the module account as well, the commit at
the end overwrites the credit.

* `Standard` is what a token has to be like, `Pegged` the invariant.
* `TokensConverted.both` and `CoinsConverted.both` say what a conversion does to both ledgers.
* `Pegged.handle` goes through the messages, with `Pegged.ethereumTx` for a transaction whose calls
  are `Undisturbed`.
* `peg_of_run` is about whole runs, `disturbedTx_unpegged` about the overwritten credit.
-/

namespace Haqq.Erc20

open Lib Function

variable {W : Type}

/-- There is a ledger that `balanceOf` reads and `transfer` moves tokens on, and only transfers by
the module account debit the module account.  The balance of an account is a slot of its own, which
may be pending in the objects of a transaction. -/
structure Standard (cfg : Config W) (contract : Address) where
  ledger : W → Address → Nat
  balanceOf_eq : ∀ {w account balance},
    cfg.evm.balanceOf w contract account = some balance → balance = ledger w account
  transfer_moves : ∀ {sender receiver amount w res w'},
    cfg.evm.transfer sender contract receiver amount w = some (res, w') → res.value = some true →
      ∀ account, (ledger w' account + if account = sender then amount else 0) =
        ledger w account + if account = receiver then amount else 0
  transfer_other : ∀ {sender other receiver amount w res w'}, other ≠ contract →
    cfg.evm.transfer sender other receiver amount w = some (res, w') →
      ledger w cfg.moduleAddress ≤ ledger w' cfg.moduleAddress
  pending : cfg.evm.Objects → Address → Option Nat
  pending_fresh : ∀ account, pending cfg.evm.fresh account = none
  commit_eq : ∀ objects w account,
    ledger (cfg.evm.commit objects w) account = (pending objects account).getD (ledger w account)
  execute_keeps : ∀ input w objects, ledger (cfg.evm.commit objects w) cfg.moduleAddress ≤
    ledger (cfg.evm.commit (cfg.evm.execute input w objects) w) cfg.moduleAddress

def supplyOf (cfg : Config W) (contract : Address) (st : Store (State W)) : Nat :=
  st.bank.supply.get (createDenom cfg contract)

def Standard.escrowed {cfg : Config W} {contract : Address} (token : Standard cfg contract)
    (st : Store (State W)) : Nat :=
  token.ledger st.modules.evm cfg.moduleAddress

/-- Nothing of the module changes, nor the supply of the contract's coin. -/
def Aside (cfg : Config W) (contract : Address) (st st' : Store (State W)) : Prop :=
  st'.modules = st.modules ∧ supplyOf cfg contract st' = supplyOf cfg contract st

/-- The coins that the transfer application mints and burns are vouchers. -/
structure VouchersOnly (cfg : Config W) (contract : Address) : Prop where
  transfer : ∀ msg, Relates (Aside cfg contract) (cfg.transferApp.transfer msg)
  recv : ∀ packet, Relates (Aside cfg contract) (cfg.transferApp.onRecvPacket packet)
  acknowledgement : ∀ packet success,
    Relates (Aside cfg contract) (cfg.transferApp.onAcknowledgementPacket packet success)
  timeout : ∀ packet, Relates (Aside cfg contract) (cfg.transferApp.onTimeoutPacket packet)

/-- The pairs are stored under their ids, which the addresses lead to, and the coin of a native
ERC-20 pair is the one of its contract. -/
structure Registered (cfg : Config W) (erc20 : State W) : Prop where
  getID : ∀ {id pair}, erc20.tokenPairs id = some pair → pair.getID = id
  erc20Map : ∀ {c id}, erc20.erc20Map c = some id → id.1 = c
  denom : ∀ {id pair}, erc20.tokenPairs id = some pair → pair.isNativeERC20 = true →
    pair.denom = createDenom cfg pair.erc20Address

namespace Registered

variable {cfg : Config W} {erc20 erc20' : State W}

theorem address_eq {c : Address} {id : PairId} {pair : TokenPair} (h : Registered cfg erc20)
    (hid : erc20.erc20Map c = some id) (hpair : erc20.tokenPairs id = some pair) :
    pair.erc20Address = c :=
  (congrArg Prod.fst (h.getID hpair)).trans (h.erc20Map hid)

theorem update {key : PairId} {entry : Option TokenPair} (h : Registered cfg erc20)
    (hpairs : erc20'.tokenPairs = update erc20.tokenPairs key entry)
    (hmap : ∀ {c id}, erc20'.erc20Map c = some id → id.1 = c)
    (hentry : ∀ pair ∈ entry, pair.getID = key ∧ (pair.isNativeERC20 = true →
      pair.denom = createDenom cfg pair.erc20Address)) : Registered cfg erc20' := by
  have hcases : ∀ {id pair}, erc20'.tokenPairs id = some pair →
      (id = key ∧ pair ∈ entry) ∨ erc20.tokenPairs id = some pair := by
    intro id pair hpair
    rw [hpairs] at hpair
    by_cases hid : id = key
    · rw [hid, update_self] at hpair
      exact .inl ⟨hid, hpair⟩
    · rw [update_of_ne hid] at hpair
      exact .inr hpair
  refine ⟨fun hpair => ?_, hmap, fun hpair hnative => ?_⟩
  · rcases hcases hpair with ⟨rfl, hmem⟩ | hold
    · exact (hentry _ hmem).1
    · exact h.getID hold
  · rcases hcases hpair with ⟨-, hmem⟩ | hold
    · exact (hentry _ hmem).2 hnative
    · exact h.denom hold hnative

theorem updateMap {addr : Address} {entry : Option PairId} (h : Registered cfg erc20)
    (hpairs : erc20'.tokenPairs = erc20.tokenPairs)
    (hmap : erc20'.erc20Map = Function.update erc20.erc20Map addr entry)
    (hentry : ∀ id ∈ entry, id.1 = addr) : Registered cfg erc20' := by
  refine ⟨fun hpair => h.getID (hpairs ▸ hpair), fun {c id} hid => ?_,
    fun hpair => h.denom (hpairs ▸ hpair)⟩
  rw [hmap] at hid
  by_cases hc : c = addr
  · rw [hc, update_self] at hid
    exact (hentry id hid).trans hc.symm
  · rw [update_of_ne hc] at hid
    exact h.erc20Map hid

end Registered

structure Pegged (cfg : Config W) (contract : Address) (token : Standard cfg contract)
    (st : Store (State W)) : Prop where
  peg : supplyOf cfg contract st ≤ token.escrowed st
  registered : Registered cfg st.modules

variable {cfg : Config W} {contract : Address} {token : Standard cfg contract}
  {st st' : Store (State W)} {u : Unit}

theorem createDenom_injective : Injective (createDenom cfg) := by
  intro a b h
  have hname : "erc20/" ++ cfg.hex a = "erc20/" ++ cfg.hex b := by simpa [createDenom] using h
  exact cfg.hex_injective (String.append_right_inj _ |>.mp hname)

/-! ## What the calls do -/

@[simp] theorem run_liftKeeper_ok {α : Type} {x : KeeperM (State W) α} {a : α} :
    (liftKeeper x).run st = .ok a st' ↔ x.run st = .ok a st' :=
  run_adaptExcept_ok

@[simp] theorem run_modifyErc20_ok {f : State W → State W} :
    (modifyErc20 f).run st = .ok u st' ↔ st' = { st with modules := f st.modules } :=
  run_modify_ok

variable {c sender receiver : Address} {amount : Nat}

theorem run_callTransfer_ok {failed : String} {res : TransferResult}
    (h : (callTransfer cfg sender c receiver amount failed).run st = .ok res st') :
    ∃ evm, cfg.evm.transfer sender c receiver amount st.modules.evm = some (res, evm) ∧
      res.value = some true ∧ st' = { st with modules := { st.modules with evm := evm } } := by
  simp only [callTransfer, run_bind_ok, get_then, ofOption_then, run_modifyErc20_ok,
    ensure_then, run_pure_ok] at h
  obtain ⟨⟨res', evm⟩, htransfer, _, _, rfl, value, hvalue, rfl, rfl, rfl⟩ := h
  exact ⟨evm, htransfer, hvalue, rfl⟩

variable {t : Token} {pair : TokenPair}

theorem run_requireTokenPair_ok (h : (requireTokenPair t).run st = .ok pair st') :
    (∃ id, getTokenPairID st.modules t = some id ∧ st.modules.tokenPairs id = some pair) ∧
      st = st' := by
  simp only [requireTokenPair, run_bind_ok, get_then, ofOption_then] at h
  obtain ⟨id, hid, h⟩ := h
  obtain ⟨hpair, rfl⟩ := run_ofOption_ok.mp h
  exact ⟨⟨id, hid, hpair⟩, rfl⟩

theorem run_mintingEnabled_ok (h : (mintingEnabled cfg sender receiver t).run st = .ok pair st') :
    (∃ id, getTokenPairID st.modules t = some id ∧ st.modules.tokenPairs id = some pair) ∧
      st = st' := by
  simp only [mintingEnabled, run_bind_ok, get_then, ensure_then, run_pure_ok] at h
  obtain ⟨-, _, _, hrequire, -, -, -, rfl, rfl⟩ := h
  exact run_requireTokenPair_ok hrequire

structure TokensConverted (cfg : Config W) (pair : TokenPair) (amount : Nat)
    (st st' : Store (State W)) (evm : W) : Prop where
  modules : st'.modules = { st.modules with evm := evm }
  supply : st'.bank.supply = st.bank.supply + Tally.single pair.denom amount
  transferred : ∃ sender res, cfg.evm.transfer sender pair.erc20Address cfg.moduleAddress amount
    st.modules.evm = some (res, evm)
  checked : ∃ balance,
    cfg.evm.balanceOf st.modules.evm pair.erc20Address cfg.moduleAddress = some balance ∧
    cfg.evm.balanceOf evm pair.erc20Address cfg.moduleAddress = some (balance + amount)

theorem convertERC20IntoCoins_effect
    (h : (convertERC20IntoCoinsForNativeToken cfg pair amount receiver sender).run st = .ok u st') :
    ∃ evm, TokensConverted cfg pair amount st st' evm := by
  simp only [convertERC20IntoCoinsForNativeToken, balanceOf, run_bind_ok, get_then, ofOption_then,
    ensure_then, run_liftKeeper_ok, Bank.run_mintCoins_ok,
    Bank.run_sendCoinsFromModuleToAccount_ok] at h
  obtain ⟨balance, hbefore, res, mid, hcall, h⟩ := h
  obtain ⟨evm, htransfer, -, rfl⟩ := run_callTransfer_ok hcall
  obtain ⟨_, hafter, rfl, _, _, rfl, _, _, ⟨_, bank, hsend, rfl⟩, -, hevent⟩ := h
  obtain ⟨-, rfl⟩ := run_ensure_ok.mp hevent
  refine ⟨evm, by simp, ?_, ⟨sender, res, htransfer⟩, balance, hbefore, hafter⟩
  simpa using Ledger.supply_send hsend

variable {contractAddress : Address}

theorem convertERC20_cases
    (h : (convertERC20 cfg contractAddress amount receiver sender).run st = .ok u st') :
    ∃ pair, (∃ id, st.modules.erc20Map contractAddress = some id ∧
        st.modules.tokenPairs id = some pair) ∧ pair.isNativeERC20 = true ∧
      ((∃ evm, TokensConverted cfg pair amount st st' evm) ∨
        (deleteTokenPair pair).run st = .ok u st') := by
  simp only [convertERC20, run_bind_ok] at h
  obtain ⟨pair, _, henabled, h⟩ := h
  obtain ⟨hpair, rfl⟩ := run_mintingEnabled_ok henabled
  split at h
  · rename_i hnative
    rw [run_bind_ok, get_then] at h
    split at h
    · exact ⟨pair, hpair, hnative, .inl (convertERC20IntoCoins_effect h)⟩
    · exact ⟨pair, hpair, hnative, .inr h⟩
  · split at h
    · exact (run_throw_ok.mp h).elim
    · exact (run_throw_ok.mp h).elim

structure CoinsConverted (cfg : Config W) (pair : TokenPair) (amount : Nat) (receiver : Address)
    (st st' : Store (State W)) (evm : W) : Prop where
  modules : st'.modules = { st.modules with evm := evm }
  supply : st'.bank.supply + Tally.single pair.denom amount = st.bank.supply
  transferred : ∃ res, cfg.evm.transfer cfg.moduleAddress pair.erc20Address receiver amount
    st.modules.evm = some (res, evm) ∧ res.value = some true

theorem convertCoinNativeERC20_effect {amount : Int}
    (h : (convertCoinNativeERC20 cfg pair amount receiver sender).run st = .ok u st') :
    st' = st ∨ ∃ evm, CoinsConverted cfg pair amount.toNat receiver st st' evm := by
  unfold convertCoinNativeERC20 at h
  split at h
  · exact .inl (run_pure_ok.mp h).2.symm
  · simp only [balanceOf, run_bind_ok, get_then, ofOption_then, ensure_then, run_liftKeeper_ok,
      Bank.sendCoinsFromAccountToModule, Bank.run_sendCoins_ok, Bank.run_burnCoins_ok] at h
    obtain ⟨_, -, _, _, ⟨sent, hsend, rfl⟩, res, mid, hcall, h⟩ := h
    obtain ⟨evm, htransfer, hvalue, rfl⟩ := run_callTransfer_ok hcall
    obtain ⟨_, -, -, _, _, ⟨burned, hburn, rfl⟩, hevent⟩ := h
    obtain ⟨-, rfl⟩ := run_ensure_ok.mp hevent
    refine .inr ⟨evm, by simp, ?_, res, by simpa using htransfer, hvalue⟩
    have hsupply := Ledger.supply_burn hburn
    simp only [Bank.withRecipient_bank, Store.setBank_bank] at hsupply
    rw [← Ledger.supply_send hsend, ← hsupply]
    rfl

theorem get_single_createDenom (hdenom : pair.denom = createDenom cfg pair.erc20Address)
    (amount : Nat) :
    (Tally.single pair.denom amount).get (createDenom cfg contract) =
      if pair.erc20Address = contract then amount else 0 := by
  rw [Tally.get_single, hdenom]
  by_cases heq : pair.erc20Address = contract
  · rw [if_pos heq, if_pos (by rw [heq])]
  · rw [if_neg heq, if_neg fun h => heq (createDenom_injective h.symm)]

variable {evm : W}

theorem TokensConverted.both (hdenom : pair.denom = createDenom cfg pair.erc20Address)
    (h : TokensConverted cfg pair amount st st' evm) (token : Standard cfg contract) :
    supplyOf cfg contract st' =
        supplyOf cfg contract st + (if pair.erc20Address = contract then amount else 0) ∧
      token.escrowed st + (if pair.erc20Address = contract then amount else 0) ≤
        token.escrowed st' ∧
      (pair.erc20Address = contract → token.escrowed st' = token.escrowed st + amount) := by
  refine ⟨?_, ?_⟩
  · rw [supplyOf, h.supply, Tally.get_add, get_single_createDenom hdenom]
    rfl
  · obtain ⟨sender, res, htransfer⟩ := h.transferred
    rw [Standard.escrowed, Standard.escrowed, h.modules]
    by_cases heq : pair.erc20Address = contract
    · obtain ⟨balance, hbefore, hafter⟩ := h.checked
      rw [heq] at hbefore hafter
      have hledger := token.balanceOf_eq hbefore
      have hledger' := token.balanceOf_eq hafter
      simp only [if_pos heq]
      constructor <;> intros <;> omega
    · rw [if_neg heq]
      exact ⟨token.transfer_other heq htransfer, fun h => absurd h heq⟩

theorem CoinsConverted.both (hdenom : pair.denom = createDenom cfg pair.erc20Address)
    (h : CoinsConverted cfg pair amount receiver st st' evm) (token : Standard cfg contract) :
    supplyOf cfg contract st' + (if pair.erc20Address = contract then amount else 0) =
        supplyOf cfg contract st ∧
      token.escrowed st ≤
        token.escrowed st' + if pair.erc20Address = contract then amount else 0 := by
  constructor
  · rw [supplyOf, supplyOf, ← h.supply, Tally.get_add, get_single_createDenom hdenom]
  · obtain ⟨res, htransfer, hvalue⟩ := h.transferred
    rw [Standard.escrowed, Standard.escrowed, h.modules]
    by_cases heq : pair.erc20Address = contract
    · rw [heq] at htransfer
      have hmoved := token.transfer_moves htransfer hvalue cfg.moduleAddress
      rw [if_pos rfl] at hmoved
      rw [if_pos heq]
      dsimp only
      omega
    · rw [if_neg heq]
      exact token.transfer_other heq htransfer

theorem transfer_cases {msg : MsgTransfer} (happ : VouchersOnly cfg contract)
    (h : (transfer cfg msg).run st = .ok u st') :
    ∃ mid, Aside cfg contract mid st' ∧ (mid = st ∨
      ∃ pair, transferPair cfg st.modules msg.denom = some pair ∧
        pair.isNativeERC20 = true ∧ (st.bank.balance msg.sender).get pair.denom < msg.amount ∧
        (convertERC20 cfg pair.erc20Address
          (msg.amount - (st.bank.balance msg.sender).get pair.denom) msg.sender msg.sender).run st =
            .ok () mid) := by
  simp only [transfer, run_bind_ok, get_then] at h
  split at h
  · exact ⟨st, happ.transfer _ _ _ _ h, .inl rfl⟩
  · rename_i pair hpair
    split at h
    · rename_i hneeded
      obtain ⟨_, mid, hconvert, h⟩ := run_bind_ok.mp h
      exact ⟨mid, happ.transfer _ _ _ _ h, .inr ⟨pair, hpair, hneeded.1, hneeded.2, hconvert⟩⟩
    · exact ⟨st, happ.transfer _ _ _ _ h, .inl rfl⟩

theorem run_ics20_cases (cfg : Config W) (start : W) (s : cfg.evm.Objects × Store (State W))
    (msg : MsgTransfer) : (Frame.ics20 msg).run cfg start s = s ∨
      ∃ st', (transfer cfg msg).run (withEvm s.2 (cfg.evm.commit s.1 s.2.modules.evm)) =
          .ok () st' ∧ (Frame.ics20 msg).run cfg start s = (s.1, st') := by
  simp only [Frame.run]
  cases (transfer cfg msg).run (withEvm s.2 (cfg.evm.commit s.1 s.2.modules.evm)) with
  | ok _ st' => exact .inr ⟨st', rfl, rfl⟩
  | error _ _ => exact .inl rfl

/-- A transfer converts tokens of the contract. -/
def Converts (cfg : Config W) (contract : Address) (st : Store (State W)) (msg : MsgTransfer) :
    Prop :=
  ∃ pair, transferPair cfg st.modules msg.denom = some pair ∧ pair.isNativeERC20 = true ∧
    pair.erc20Address = contract ∧ (st.bank.balance msg.sender).get pair.denom < msg.amount

/-- A transaction converts no tokens of the contract through the precompile, or its code writes the
balance of the module account in none of its calls. -/
def Undisturbed (token : Standard cfg contract) (st : Store (State W)) : Msg cfg.evm.Input → Prop
  | .ethereumTx frames =>
    Run.Along (Frame.run cfg st.modules.evm) (fun s frame => ∀ msg, frame = .ics20 msg →
      ¬ Converts cfg contract s.2 msg) (cfg.evm.fresh, st) frames ∨
    Run.Along (Frame.run cfg st.modules.evm) (fun s frame =>
      token.pending (frame.run cfg st.modules.evm s).1 cfg.moduleAddress = none)
      (cfg.evm.fresh, st) frames
  | _ => True

/-! ## Conversions -/

namespace Pegged

section

variable (hst : Pegged cfg contract token st)

include hst

theorem of_pure (hrun : (pure u : Erc20M W Unit).run st = .ok u st') :
    Pegged cfg contract token st' :=
  (run_pure_ok.mp hrun).2 ▸ hst

theorem converted (hmodules : st'.modules = { st.modules with evm := evm })
    (hboth : supplyOf cfg contract st' + token.escrowed st ≤
      supplyOf cfg contract st + token.escrowed st') : Pegged cfg contract token st' := by
  have hpeg := hst.peg
  refine ⟨by omega, ?_⟩
  rw [hmodules]
  exact { hst.registered with }

theorem setErc20 {erc20 : State W} (hevm : erc20.evm = st.modules.evm)
    (hregistered : Registered cfg erc20) :
    Pegged cfg contract token { st with modules := erc20 } := by
  refine ⟨?_, hregistered⟩
  have hpeg := hst.peg
  rw [Standard.escrowed] at hpeg ⊢
  rw [hevm]
  exact hpeg

theorem setTokenPair
    (hpair : pair.isNativeERC20 = true → pair.denom = createDenom cfg pair.erc20Address)
    (hrun : (Erc20.setTokenPair pair).run st = .ok u st') : Pegged cfg contract token st' := by
  obtain rfl := run_modifyErc20_ok.mp hrun
  refine hst.setErc20 rfl (hst.registered.update rfl hst.registered.erc20Map fun other hother => ?_)
  obtain rfl := Option.some.inj hother
  exact ⟨rfl, hpair⟩

theorem setToken
    (hpair : pair.isNativeERC20 = true → pair.denom = createDenom cfg pair.erc20Address)
    (hrun : (Erc20.setToken pair).run st = .ok u st') : Pegged cfg contract token st' := by
  simp only [Erc20.setToken, run_bind_ok] at hrun
  obtain ⟨_, stored, hstored, _, named, hnamed, hrun⟩ := hrun
  have hpegged := hst.setTokenPair hpair hstored
  obtain rfl := run_modifyErc20_ok.mp hnamed
  obtain rfl := run_modifyErc20_ok.mp hrun
  refine hpegged.setErc20 rfl (hpegged.registered.updateMap rfl rfl fun id hid => ?_)
  obtain rfl := Option.some.inj hid
  rfl

theorem deleteTokenPair (hrun : (Erc20.deleteTokenPair pair).run st = .ok u st') :
    Pegged cfg contract token st' := by
  obtain rfl := run_modifyErc20_ok.mp hrun
  have hmap := @Registered.updateMap _ cfg st.modules
    { st.modules with erc20Map := update st.modules.erc20Map pair.erc20Address none }
    pair.erc20Address none hst.registered rfl rfl fun _ hid => by cases hid
  exact hst.setErc20 rfl (hmap.update rfl hmap.erc20Map fun other hother => by cases hother)

theorem convertERC20
    (hrun : (Erc20.convertERC20 cfg contractAddress amount receiver sender).run st = .ok u st') :
    Pegged cfg contract token st' := by
  obtain ⟨pair, ⟨id, -, hid⟩, hnative, ⟨evm, hconverted⟩ | hdelete⟩ := convertERC20_cases hrun
  · obtain ⟨hsupply, hescrowed, -⟩ := hconverted.both (hst.registered.denom hid hnative) token
    exact hst.converted hconverted.modules (by omega)
  · exact hst.deleteTokenPair hdelete

theorem convertCoinNativeERC20 {amount : Int} {id : Option PairId}
    (hpair : getTokenPair st.modules id = some pair) (hnative : pair.isNativeERC20 = true)
    (hrun : (Erc20.convertCoinNativeERC20 cfg pair amount receiver sender).run st = .ok u st') :
    Pegged cfg contract token st' := by
  rcases convertCoinNativeERC20_effect hrun with rfl | ⟨evm, hconverted⟩
  · exact hst
  · obtain ⟨id, -, hid⟩ := Option.bind_eq_some_iff.mp hpair
    obtain ⟨hsupply, hescrowed⟩ := hconverted.both (hst.registered.denom hid hnative) token
    exact hst.converted hconverted.modules (by omega)

theorem registerERC20 (hrun : (Erc20.registerERC20 cfg c).run st = .ok u st') :
    Pegged cfg contract token st' := by
  simp only [Erc20.registerERC20, createCoinMetadata, run_bind_ok, get_then, ensure_then,
    ofOption_then, run_modifyErc20_ok, run_pure_ok] at hrun
  obtain ⟨-, _, _, ⟨_, -, -, -, -, _, _, rfl, rfl, rfl⟩, hrun⟩ := hrun
  refine setToken ?_ (fun _ => rfl) hrun
  exact hst.setErc20 rfl { hst.registered with }

theorem toggleConversion (hrun : (Erc20.toggleConversion t).run st = .ok u st') :
    Pegged cfg contract token st' := by
  simp only [Erc20.toggleConversion, run_bind_ok] at hrun
  obtain ⟨pair, _, hrequire, hrun⟩ := hrun
  obtain ⟨⟨id, -, hid⟩, rfl⟩ := run_requireTokenPair_ok hrequire
  have hdenom : pair.isNativeERC20 = true → pair.denom = createDenom cfg pair.erc20Address :=
    hst.registered.denom hid
  refine setTokenPair hst ?_ hrun
  exact hdenom

theorem aside (h : Aside cfg contract st st') : Pegged cfg contract token st' := by
  obtain ⟨hmodules, hsupply⟩ := h
  refine ⟨?_, hmodules ▸ hst.registered⟩
  rw [hsupply, Standard.escrowed, hmodules]
  exact hst.peg

theorem onRecvPacket {packet : Packet} (hrun : (Erc20.onRecvPacket cfg packet).run st = .ok u st') :
    Pegged cfg contract token st' := by
  rw [Erc20.onRecvPacket, run_bind_ok, get_then] at hrun
  split at hrun
  · exact hst.of_pure hrun
  simp only [run_bind_ok, get_then, ofOption_then, ensure_then] at hrun
  obtain ⟨data, -, _, -, recipient, -, -, hrun⟩ := hrun
  split at hrun
  · exact hst.of_pure hrun
  split at hrun
  · exact hst.of_pure hrun
  split at hrun
  · exact hst.of_pure hrun
  split at hrun
  · split at hrun
    · rw [registerERC20Extension, run_bind_ok, ofOption_then] at hrun
      obtain ⟨_, -, hrun⟩ := hrun
      exact hst.setToken (fun hnative => by simp [newTokenPair, TokenPair.isNativeERC20] at hnative)
        hrun
    · exact hst.of_pure hrun
  · rename_i pair hpair
    split at hrun
    · rename_i hnative
      exact hst.convertCoinNativeERC20 hpair (Bool.and_eq_true_iff.mp hnative).1 hrun
    · exact hst.of_pure hrun

theorem transfer {msg : MsgTransfer} (happ : VouchersOnly cfg contract)
    (hrun : (Erc20.transfer cfg msg).run st = .ok u st') : Pegged cfg contract token st' := by
  obtain ⟨mid, haside, rfl | ⟨pair, -, -, -, hconvert⟩⟩ := transfer_cases happ hrun
  · exact hst.aside haside
  · exact (hst.convertERC20 hconvert).aside haside

theorem convertCoinToERC20FromPacket {data : PacketData}
    (hrun : (Erc20.convertCoinToERC20FromPacket cfg data).run st = .ok u st') :
    Pegged cfg contract token st' := by
  simp only [Erc20.convertCoinToERC20FromPacket, run_bind_ok, get_then, ofOption_then] at hrun
  obtain ⟨sender, -, hrun⟩ := hrun
  split at hrun
  · exact hst.of_pure hrun
  rename_i pair hpair
  split at hrun
  · exact hst.of_pure hrun
  split at hrun
  · rename_i hnative
    split at hrun
    · exact hst.of_pure hrun
    split at hrun
    · exact hst.of_pure hrun
    rw [run_bind_ok, ofOption_then] at hrun
    obtain ⟨amount, -, hrun⟩ := hrun
    exact hst.convertCoinNativeERC20 hpair hnative hrun
  · exact hst.of_pure hrun

end

/-! ## Ethereum transactions -/

theorem withEvm_commit {objects : cfg.evm.Objects} (hst : Pegged cfg contract token st) (start : W)
    (h : token.pending objects cfg.moduleAddress = none ∨
      supplyOf cfg contract st ≤ token.ledger (cfg.evm.commit objects start) cfg.moduleAddress) :
    Pegged cfg contract token (withEvm st (cfg.evm.commit objects st.modules.evm)) := by
  refine ⟨?_, { hst.registered with }⟩
  have hpeg := hst.peg
  show supplyOf cfg contract st ≤
    token.ledger (cfg.evm.commit objects st.modules.evm) cfg.moduleAddress
  rw [token.commit_eq] at h ⊢
  cases hpending : token.pending objects cfg.moduleAddress with
  | none => exact hpeg
  | some balance =>
    rw [hpending] at h
    exact h.resolve_left nofun

theorem run_ics20 {start : W} {s : cfg.evm.Objects × Store (State W)} {msg : MsgTransfer}
    (happ : VouchersOnly cfg contract) (hst : Pegged cfg contract token s.2)
    (hcommit : Pegged cfg contract token (withEvm s.2 (cfg.evm.commit s.1 s.2.modules.evm))) :
    Pegged cfg contract token ((Frame.ics20 msg).run cfg start s).2 ∧
      ((Frame.ics20 msg).run cfg start s).1 = s.1 := by
  rcases run_ics20_cases cfg start s msg with hsame | ⟨st', hrun, hnext⟩
  · rw [hsame]
    exact ⟨hst, rfl⟩
  · rw [hnext]
    exact ⟨hcommit.transfer happ hrun, rfl⟩

theorem supply_ics20 {start : W} {s : cfg.evm.Objects × Store (State W)} {msg : MsgTransfer}
    (happ : VouchersOnly cfg contract) (hst : Pegged cfg contract token s.2)
    (hmsg : ¬ Converts cfg contract s.2 msg) :
    supplyOf cfg contract ((Frame.ics20 msg).run cfg start s).2 = supplyOf cfg contract s.2 := by
  rcases run_ics20_cases cfg start s msg with hsame | ⟨st', hrun, hnext⟩
  · rw [hsame]
  rw [hnext]
  obtain ⟨mid, ⟨-, hmid⟩, rfl | ⟨pair, hpair, hneeded, hlacks, hconvert⟩⟩ :=
    transfer_cases happ hrun
  · exact hmid
  refine hmid.trans ?_
  have hother : pair.erc20Address ≠ contract := fun heq => hmsg ⟨pair, hpair, hneeded, heq, hlacks⟩
  obtain ⟨pair', ⟨id, hid, hstored⟩, hnative, ⟨evm, hconverted⟩ | hdelete⟩ :=
    convertERC20_cases hconvert
  · have hsupply := (hconverted.both (hst.registered.denom hstored hnative) token).1
    rw [hst.registered.address_eq hid hstored, if_neg hother] at hsupply
    exact hsupply
  · rw [run_modifyErc20_ok.mp hdelete]
    rfl

theorem ethereumTx {frames : List (Frame cfg.evm.Input)} (happ : VouchersOnly cfg contract)
    (hst : Pegged cfg contract token st) (hframes : Undisturbed token st (.ethereumTx frames)) :
    Pegged cfg contract token (Erc20.ethereumTx cfg frames st) := by
  have hfresh := token.pending_fresh cfg.moduleAddress
  rcases hframes with hconverts | hpending
  · -- without a conversion the objects cover the supply as the store does
    have hview : supplyOf cfg contract st ≤
        token.ledger (cfg.evm.commit cfg.evm.fresh st.modules.evm) cfg.moduleAddress := by
      rw [token.commit_eq, hfresh]
      exact hst.peg
    have hrun := @Run.invariant _ _ _ (fun s => Pegged cfg contract token s.2 ∧
      supplyOf cfg contract s.2 ≤
        token.ledger (cfg.evm.commit s.1 st.modules.evm) cfg.moduleAddress) _ _ _ ?_
      ⟨hst, hview⟩ hconverts
    · exact hrun.1.withEvm_commit _ (.inr hrun.2)
    · rintro s (input | msg) hframe ⟨hs, hview⟩
      · exact ⟨hs, hview.trans (token.execute_keeps input _ _)⟩
      · obtain ⟨hs', hobjects⟩ := @run_ics20 _ _ _ _ st.modules.evm s msg happ hs
          (hs.withEvm_commit _ (.inr hview))
        refine ⟨hs', ?_⟩
        rw [hobjects, supply_ics20 happ hs (hframe msg rfl)]
        exact hview
  · have hrun := @Run.invariant _ _ _ (fun s => Pegged cfg contract token s.2 ∧
      token.pending s.1 cfg.moduleAddress = none) _ _ _ ?_ ⟨hst, hfresh⟩ hpending
    · exact hrun.1.withEvm_commit st.modules.evm (.inl hrun.2)
    · rintro s (input | msg) hframe ⟨hs, hnone⟩
      · exact ⟨hs, hframe⟩
      · obtain ⟨hs', hobjects⟩ := @run_ics20 _ _ _ _ st.modules.evm s msg happ hs
          (hs.withEvm_commit st.modules.evm (.inl hnone))
        exact ⟨hs', hobjects ▸ hnone⟩

/-! ## Messages -/

theorem handle {msg : Msg cfg.evm.Input} (happ : VouchersOnly cfg contract)
    (hst : Pegged cfg contract token st) (hmsg : Undisturbed token st msg)
    (hrun : (msg.handle cfg).run st = .ok u st') : Pegged cfg contract token st' := by
  cases msg with
  | convertERC20 contractAddress amount receiver sender =>
    rw [Msg.handle, run_bind_ok, ensure_then] at hrun
    exact hst.convertERC20 hrun.2
  | registerERC20 authority erc20Addresses =>
    simp only [Msg.handle, validateAuthority, run_bind_ok, get_then, ensure_then] at hrun
    exact run_forM_invariant (fun c _ s s' hc hs => hs.registerERC20 hc) hrun.2.2 hst
  | toggleConversion authority t =>
    simp only [Msg.handle, validateAuthority, run_bind_ok, get_then, ensure_then] at hrun
    exact hst.toggleConversion hrun.2.2
  | updateParams authority enableErc20 =>
    rw [Msg.handle, validateAuthority, run_bind_ok, ensure_then] at hrun
    obtain rfl := run_modifyErc20_ok.mp hrun.2
    exact hst.setErc20 rfl { hst.registered with }
  | send fromAddress toAddress amount =>
    rw [Msg.handle, run_bind_ok, ensure_then, run_liftKeeper_ok, Bank.run_sendCoins_ok] at hrun
    obtain ⟨-, bank, hsend, rfl⟩ := hrun
    exact hst.aside ⟨by simp, by simp [supplyOf, Ledger.supply_send hsend]⟩
  | ethereumTx frames =>
    obtain rfl := run_modify_ok.mp hrun
    exact hst.ethereumTx happ hmsg
  | transfer msg => exact hst.transfer happ hrun
  | recvPacket packet =>
    simp only [Msg.handle, run_bind_ok] at hrun
    obtain ⟨ack, mid, happRun, hrun⟩ := hrun
    have hmid := hst.aside (happ.recv packet st ack mid happRun)
    rcases ack with _ | _ | _
    · exact hmid.of_pure hrun
    · exact (run_throw_ok.mp hrun).elim
    · exact hmid.onRecvPacket hrun
  | acknowledgement packet success =>
    simp only [Msg.handle, run_bind_ok, ofOption_then] at hrun
    obtain ⟨data, -, _, mid, happRun, hrun⟩ := hrun
    have hmid := hst.aside (happ.acknowledgement packet success st _ mid happRun)
    split at hrun
    · exact hmid.of_pure hrun
    · exact hmid.convertCoinToERC20FromPacket hrun
  | timeout packet =>
    simp only [Msg.handle, run_bind_ok, ofOption_then] at hrun
    obtain ⟨data, -, _, mid, happRun, hrun⟩ := hrun
    have hmid := hst.aside (happ.timeout packet st _ mid happRun)
    exact hmid.convertCoinToERC20FromPacket hrun

end Pegged

/-! ## Runs -/

def Standard.atTime (token : Standard cfg contract) (now : Int) :
    Standard (cfg.atTime now) contract :=
  { token with }

theorem step_cases (cfg : Config W) (st : Store (State W)) (tx : Tx (Msg cfg.evm.Input)) :
    step cfg st tx = st ∨
      (tx.msg.handle (cfg.atTime tx.blockTime)).run st = .ok () (step cfg st tx) := by
  unfold step
  cases (tx.msg.handle (cfg.atTime tx.blockTime)).run st with
  | ok _ st' => exact .inr rfl
  | error _ _ => exact .inl rfl

theorem Pegged.step (happ : VouchersOnly cfg contract) (hst : Pegged cfg contract token st)
    {tx : Tx (Msg cfg.evm.Input)} (htx : Undisturbed (token.atTime tx.blockTime) st tx.msg) :
    Pegged cfg contract token (Erc20.step cfg st tx) := by
  rcases step_cases cfg st tx with hkeep | hrun
  · rw [hkeep]
    exact hst
  · have hnow : Pegged (cfg.atTime tx.blockTime) contract (token.atTime tx.blockTime) st :=
      ⟨hst.peg, { hst.registered with }⟩
    have happNow : VouchersOnly (cfg.atTime tx.blockTime) contract :=
      { happ with }
    obtain ⟨hpeg, hregistered⟩ := hnow.handle happNow htx hrun
    exact ⟨hpeg, { hregistered with }⟩

theorem convertERC20_both (hst : Pegged cfg contract token st) (now amount : Int)
    (receiver sender : Address) (hst' : st' =
      step cfg st ⟨now, .convertERC20 contract amount receiver sender⟩) :
    (supplyOf cfg contract st' = supplyOf cfg contract st + amount.toNat ∧
      token.escrowed st' = token.escrowed st + amount.toNat) ∨
    (supplyOf cfg contract st' = supplyOf cfg contract st ∧
      token.escrowed st' = token.escrowed st) := by
  subst hst'
  rcases step_cases cfg st ⟨now, .convertERC20 contract amount receiver sender⟩ with hkeep | hrun
  · rw [hkeep]
    exact .inr ⟨rfl, rfl⟩
  · simp only [Msg.handle, run_bind_ok, ensure_then] at hrun
    obtain ⟨pair, ⟨id, hid, hpair⟩, hnative, ⟨evm, hconverted⟩ | hdelete⟩ :=
      convertERC20_cases hrun.2
    · have hcontract := hst.registered.address_eq hid hpair
      have hdenom : pair.denom = createDenom (cfg.atTime now) pair.erc20Address :=
        hst.registered.denom hpair hnative
      obtain ⟨hsupply, -, hescrowed⟩ := hconverted.both hdenom (token.atTime now)
      rw [if_pos hcontract] at hsupply
      exact .inl ⟨hsupply, hescrowed hcontract⟩
    · rw [run_modifyErc20_ok.mp hdelete]
      exact .inr ⟨rfl, rfl⟩

abbrev Balances := Address → Nat

def moveTokens (sender receiver : Address) (amount : Nat) (w : Balances) : Option Balances :=
  if amount ≤ w sender then
    some fun a => w a - (if a = sender then amount else 0) + if a = receiver then amount else 0
  else none

structure TokenTransfer where
  sender : Address
  receiver : Address
  amount : Nat

def commitTokens (objects : Address → Option Nat) (w : Balances) : Balances :=
  fun a => (objects a).getD (w a)

/-- The users of the token move their tokens, which the module account 104 does by messages only. -/
def executeTokens (input : TokenTransfer) (w : Balances) (objects : Address → Option Nat) :
    Address → Option Nat :=
  if input.sender = 104 then objects
  else (moveTokens input.sender input.receiver input.amount (commitTokens objects w)).elim objects
    fun w' a => if a = input.sender ∨ a = input.receiver then some (w' a) else objects a

def oneToken : Evm Balances where
  balanceOf w contract account := if contract = 50 then some (w account) else none
  transfer sender contract receiver amount w :=
    if contract = 50 then
      (moveTokens sender receiver amount w).map fun w' => (⟨some true, false⟩, w')
    else none
  isContract _ contract := decide (contract = 50)
  queryERC20 _ contract := if contract = 50 then some ⟨"Token", "TKN", 18⟩ else none
  Objects := Address → Option Nat
  fresh _ := none
  Input := TokenTransfer
  execute := executeTokens
  commit := commitTokens

/-- Account 60 holds the coins that were sent to other chains. -/
def escrowApp (env : Env) : TransferApp Balances where
  transfer msg :=
    liftKeeper (Bank.sendCoins env msg.sender 60 (Tally.single msg.denom msg.amount))
  onRecvPacket _ := pure (some true)
  onAcknowledgementPacket _ _ := pure ()
  onTimeoutPacket _ := pure ()

def tokenEnv : Env where
  keccak256 _ := 0
  evmDenom := .islm
  evmModule := 100
  blocked addr := decide (100 ≤ addr ∧ addr ≤ 104)
  blockTime := 0

def unary (addr : Address) : String := String.ofList (List.replicate addr.val '0')

theorem unary_injective : Injective unary := by
  intro a b h
  have hlength := congrArg String.length h
  simp only [unary, String.length_ofList, List.length_replicate] at hlength
  exact Fin.ext hlength

def tokenConfig : Config Balances where
  toEnv := tokenEnv
  moduleAddress := 104
  authority := 9
  bondDenom := .islm
  evm := oneToken
  transferApp := escrowApp tokenEnv
  hex := unary
  hex_injective := unary_injective
  hexAddress denom := if denom = .other (unary 50) then some 50 else none
  validMetadata _ _ := true
  isModuleAccount _ := false
  isEVMChannel _ := true
  haqqAddressFromBech32 text := some (Fin.ofNat _ text.length)
  accAddressFromBech32 text := some (Fin.ofNat _ text.length)
  receivedDenom _ denom := denom
  sentDenom denom := denom
  isBaseDenomFromSourceChain _ := false
  ibcDenomAddress _ := none

theorem moveTokens_moves {w w' : Balances} (h : moveTokens sender receiver amount w = some w')
    (account : Address) :
    (w' account + if account = sender then amount else 0) =
      w account + if account = receiver then amount else 0 := by
  unfold moveTokens at h
  split at h
  · obtain rfl := Option.some.inj h
    by_cases hsender : account = sender
    · subst hsender
      simp only [if_true]
      omega
    · simp [hsender]
  · cases h

theorem executeTokens_keeps (input : TokenTransfer) (w : Balances)
    (objects : Address → Option Nat) :
    commitTokens objects w 104 ≤ commitTokens (executeTokens input w objects) w 104 := by
  unfold executeTokens
  split
  · exact le_rfl
  · rename_i hsender
    cases hmove : moveTokens input.sender input.receiver input.amount (commitTokens objects w) with
    | none => exact le_rfl
    | some w' =>
      have hmoved := moveTokens_moves hmove 104
      rw [if_neg fun h => hsender h.symm] at hmoved
      simp only [Option.elim_some]
      by_cases hwritten : 104 = input.sender ∨ 104 = input.receiver
      · simp only [commitTokens, if_pos hwritten, Option.getD_some] at hmoved ⊢
        omega
      · simp [commitTokens, if_neg hwritten]

def tokenStandard : Standard tokenConfig 50 where
  ledger w := w
  balanceOf_eq h := by
    simp only [tokenConfig, oneToken, if_true] at h
    exact (Option.some.inj h).symm
  transfer_moves h _ account := by
    simp only [tokenConfig, oneToken, if_true, Option.map_eq_some_iff, Prod.mk.injEq] at h
    obtain ⟨w', hmove, -, rfl⟩ := h
    exact moveTokens_moves hmove account
  transfer_other hother h := by
    simp only [tokenConfig, oneToken, if_neg hother] at h
    cases h
  pending objects := objects
  pending_fresh _ := rfl
  commit_eq _ _ _ := rfl
  execute_keeps := executeTokens_keeps

def beforeConversion : Store (State Balances) where
  accounts _ := none
  nextAccountNumber := 1
  bank := ⟨fun _ => 0, 0⟩
  code _ := none
  storage _ _ := 0
  modules :=
    { enableErc20 := true
      tokenPairs := update (fun _ => none) (50, createDenom tokenConfig 50)
        (some (newTokenPair 50 (createDenom tokenConfig 50) .external))
      erc20Map := update (fun _ => none) 50 (some (50, createDenom tokenConfig 50))
      denomMap := update (fun _ => none) (createDenom tokenConfig 50)
        (some (50, createDenom tokenConfig 50))
      denomMetadata := {createDenom tokenConfig 50}
      sendEnabled _ := true
      evm a := if a = 2 then 100 else 0 }

theorem beforeConversion_pegged : Pegged tokenConfig 50 tokenStandard beforeConversion := by
  have hpairs : ∀ {id pair}, beforeConversion.modules.tokenPairs id = some pair →
      id = (50, createDenom tokenConfig 50) ∧
        pair = newTokenPair 50 (createDenom tokenConfig 50) .external := by
    intro id pair hpair
    simp only [beforeConversion, update_apply] at hpair
    split at hpair
    · exact ⟨‹_›, (Option.some.inj hpair).symm⟩
    · cases hpair
  refine ⟨Nat.zero_le _, fun hpair => ?_, fun {c id} hid => ?_, fun hpair _ => ?_⟩
  · obtain ⟨rfl, rfl⟩ := hpairs hpair
    rfl
  · simp only [beforeConversion, update_apply] at hid
    split at hid
    · rw [← Option.some.inj hid, ‹c = 50›]
    · cases hid
  · obtain ⟨-, rfl⟩ := hpairs hpair
    rfl

theorem tokenConfig_vouchersOnly : VouchersOnly tokenConfig 50 := by
  have hpure : ∀ {α : Type} (a : α), Relates (Aside tokenConfig 50)
      (pure a : Erc20M Balances α) := by
    intro α a st _ _ hrun
    obtain ⟨-, rfl⟩ := run_pure_ok.mp hrun
    exact ⟨rfl, rfl⟩
  refine ⟨fun msg st u st' hrun => ?_, fun _ => hpure _, fun _ _ => hpure _, fun _ => hpure _⟩
  simp only [tokenConfig, escrowApp, run_liftKeeper_ok, Bank.run_sendCoins_ok] at hrun
  obtain ⟨bank, hsend, rfl⟩ := hrun
  exact ⟨by simp, by simp [supplyOf, Ledger.supply_send hsend]⟩

def tokenTransfer (amount : Nat) : MsgTransfer := ⟨createDenom tokenConfig 50, amount, 2, "abc"⟩

def tokenRun : List (Tx (Msg TokenTransfer)) :=
  [⟨1, .convertERC20 50 60 2 2⟩,
    ⟨2, .send 2 60 (Tally.single (createDenom tokenConfig 50) 20)⟩,
    ⟨3, .recvPacket ⟨"", "", "", "", some ⟨createDenom tokenConfig 50, none, "", "ab"⟩⟩⟩,
    ⟨4, .ethereumTx [.ics20 (tokenTransfer 15), .ics20 (tokenTransfer 10)]⟩,
    ⟨5, .ethereumTx [.code ⟨2, 104, 1⟩]⟩]

theorem tokenRun_undisturbed : Run.Along (step tokenConfig) (fun s tx =>
    Undisturbed (tokenStandard.atTime tx.blockTime) s tx.msg) beforeConversion tokenRun := by
  refine ⟨trivial, trivial, trivial, .inr ?_, .inl ?_, trivial⟩
  · exact ⟨by decide +kernel, by decide +kernel, trivial⟩
  · exact ⟨nofun, trivial⟩

/-- The code sends one token to the module account before or after 50 tokens are converted. -/
def disturbedTx (before : Bool) : Tx (Msg TokenTransfer) :=
  let frames : List (Frame TokenTransfer) := [.code ⟨2, 104, 1⟩, .ics20 (tokenTransfer 50)]
  ⟨1, .ethereumTx (if before then frames else frames.reverse)⟩

end Haqq.Erc20
