import Haqq.Ethiq.Sales

/-!
# Genesis of the ethiq module

`x/ethiq/genesis.go`, `types/genesis.go` and `keeper/store.go`.  `Stored` is the content of the
module's store.  `Validate` does not relate the total to the applications, and it accepts an
application that is listed twice.

* `Models.run`: the store follows the keeper through a run.
* `genesis_sound_iff`: which valid genesis states are sound.
-/

namespace Haqq.Ethiq

open Lib

/-- The empty byte string of 0 is replaced. -/
def executedApplicationStoreKey (appID : UInt64) : List Nat :=
  let key := (Nat.digits 256 appID.toNat).reverse
  if key.length = 0 then [0] else key

def decodeStoreKey (key : List Nat) : UInt64 := UInt64.ofNat (Nat.ofDigits 256 key.reverse)

theorem decodeStoreKey_executedApplicationStoreKey (appID : UInt64) :
    decodeStoreKey (executedApplicationStoreKey appID) = appID := by
  have hvalue : Nat.ofDigits 256 (executedApplicationStoreKey appID).reverse = appID.toNat := by
    simp only [executedApplicationStoreKey]
    split
    · rename_i hlength
      have hzero : appID.toNat = 0 := Nat.digits_eq_nil_iff_eq_zero.mp (by simpa using hlength)
      simp [hzero]
    · rw [List.reverse_reverse, Nat.ofDigits_digits]
  rw [decodeStoreKey, hvalue, UInt64.ofNat_toNat]

theorem executedApplicationStoreKey_injective : Function.Injective executedApplicationStoreKey :=
  Function.LeftInverse.injective decodeStoreKey_executedApplicationStoreKey

structure Params where
  enabled : Bool
  minMintPerTx : Int
  maxMintPerTx : Int
  maxSupply : Int
  deriving DecidableEq

def Params.validate (p : Params) : Except String Unit :=
  if p.maxMintPerTx ≤ p.minMintPerTx then
    throw
      s!"min_mint_per_tx ({p.minMintPerTx}) must be less than max_mint_per_tx ({p.maxMintPerTx})"
  else if p.maxSupply ≤ p.minMintPerTx then
    throw s!"min_mint_per_tx ({p.minMintPerTx}) must be less than max_supply ({p.maxSupply})"
  else if p.maxSupply < p.maxMintPerTx then
    throw s!"max_mint_per_tx ({p.maxMintPerTx}) must be less or equal to max_supply ({p.maxSupply})"
  else pure ()

structure Stored where
  params : Params
  totalBurnedAmount : Option Int
  totalBurnedFromApplicationsAmount : Option Int
  /-- The keys below `ExecutedApplicationsPrefix`. -/
  executedApplications : Finset (List Nat)
  deriving DecidableEq

namespace Stored

variable (s : Stored)

def getTotalBurnedAmount : Int := s.totalBurnedAmount.getD 0

def getTotalBurnedFromApplicationsAmount : Int := s.totalBurnedFromApplicationsAmount.getD 0

/-- `sdk.NewCoin` panics on a negative amount. -/
def addToTotalBurnedAmount (amount : Int) : Option Stored :=
  if s.getTotalBurnedAmount + amount < 0 then none
  else some { s with totalBurnedAmount := some (s.getTotalBurnedAmount + amount) }

def addToTotalBurnedFromApplicationsAmount (amount : Int) : Option Stored :=
  if s.getTotalBurnedFromApplicationsAmount + amount < 0 then none
  else some { s with
    totalBurnedFromApplicationsAmount := some (s.getTotalBurnedFromApplicationsAmount + amount) }

def isApplicationExecuted (appID : UInt64) : Bool :=
  decide (executedApplicationStoreKey appID ∈ s.executedApplications)

def setApplicationAsExecuted (appID : UInt64) : Stored :=
  { s with
    executedApplications := insert (executedApplicationStoreKey appID) s.executedApplications }

def getAllExecutedApplicationsIDs : List UInt64 :=
  (Tally.sorted s.executedApplications).map decodeStoreKey

end Stored

structure GenesisState where
  params : Params
  /-- The denomination and the amount of the coin `TotalBurnedAmount`. -/
  totalBurnedDenom : Denom
  totalBurnedAmount : Int
  executedApplications : List UInt64

variable (applications : List BurnApplication)

def isApplicationExists (appID : UInt64) : Bool := decide (appID.toNat < applications.length)

def GenesisState.validate (gs : GenesisState) : Except String Unit := do
  gs.params.validate
  if gs.totalBurnedDenom ≠ .islm then throw "invalid amount"
  else if gs.executedApplications.all (isApplicationExists applications) then pure ()
  else throw "invalid application ID"

/-- `none` is a panic. -/
def loadExecuted : List UInt64 → Stored → Option Stored
  | [], s => some s
  | appID :: rest, s => do
    let application ← applications[appID.toNat]?
    let s ← (s.setApplicationAsExecuted appID).addToTotalBurnedFromApplicationsAmount
      application.burnAmount
    loadExecuted rest s

def initGenesis (gs : GenesisState) : Option Stored :=
  let s : Stored := ⟨gs.params, none, none, ∅⟩
  if gs.totalBurnedAmount = 0 then loadExecuted applications gs.executedApplications s
  -- `SetTotalBurnedAmount` panics on another denomination
  else if gs.totalBurnedDenom ≠ .islm then none
  else loadExecuted applications gs.executedApplications
    { s with totalBurnedAmount := some gs.totalBurnedAmount }

def exportGenesis (s : Stored) : GenesisState :=
  ⟨s.params, .islm, s.getTotalBurnedAmount, s.getAllExecutedApplicationsIDs⟩

/-- `none` is a panic, of `Coin.Sub` on a negative result or of an empty waitlist. -/
def islmTotalBurnedBefore (s : Stored) : Option Int := do
  let last ← applications.getLast?
  let position := s.getTotalBurnedAmount + (last.burnAmount + last.burnedBeforeAmount) -
    s.getTotalBurnedFromApplicationsAmount
  if position < 0 then none else some position

def executedSum (s : Stored) : Nat :=
  ∑ key ∈ s.executedApplications, burnAmountOf applications (decodeStoreKey key).toNat

structure Consistent (s : Stored) : Prop where
  le_sumAll : s.getTotalBurnedFromApplicationsAmount ≤ sumAll applications
  le_totalBurned : s.getTotalBurnedFromApplicationsAmount ≤ s.getTotalBurnedAmount
  eq_executedSum : s.getTotalBurnedFromApplicationsAmount = executedSum applications s
  /-- `CalculateHaqqCoinsToMint` does not panic. -/
  sells : applications ≠ [] → (islmTotalBurnedBefore applications s).isSome = true

def RoundTrips (s : Stored) : Prop :=
  ∃ s', initGenesis applications (exportGenesis s) = some s' ∧ s'.params = s.params ∧
    s'.getTotalBurnedAmount = s.getTotalBurnedAmount ∧
    s'.executedApplications = s.executedApplications

/-- The params belong to the params module. -/
inductive Step : Stored → Stored → Prop
  | burn {s s' : Stored} {amount : Int} (hpos : 0 < amount)
      (hadd : s.addToTotalBurnedAmount amount = some s') : Step s s'
  | application {s s₁ s₂ : Stored} {appID : UInt64} {application : BurnApplication}
      (hexists : applications[appID.toNat]? = some application)
      (hexecuted : s.isApplicationExecuted appID = false)
      (hcanceled : application.isCanceled = false)
      (hadd : s.addToTotalBurnedAmount application.burnAmount = some s₁)
      (hadd' : s₁.addToTotalBurnedFromApplicationsAmount application.burnAmount = some s₂) :
      Step s (s₂.setApplicationAsExecuted appID)
  | params {s : Stored} (params : Params) : Step s { s with params := params }

abbrev Reaches : Stored → Stored → Prop := Relation.ReflTransGen (Step applications)

/-- **Soundness of a genesis state.**  It is loaded into a consistent state, and every
state reached from there can be exported and loaded again. -/
structure GenesisState.Sound (gs : GenesisState) : Prop where
  loads : ∃ s, initGenesis applications gs = some s ∧ Consistent applications s ∧
    ∀ s', Reaches applications s s' → RoundTrips applications s'
  injective : Function.Injective executedApplicationStoreKey
  decodable : ∀ appID, decodeStoreKey (executedApplicationStoreKey appID) = appID

/-- No application that burns something is listed twice, and together the applications
burn at most the total. -/
structure GenesisState.Matching (gs : GenesisState) : Prop where
  nodup : (gs.executedApplications.filter
    fun appID => burnAmountOf applications appID.toNat ≠ 0).Nodup
  le_total : ((gs.executedApplications.map
    fun appID => burnAmountOf applications appID.toNat).sum : Int) ≤ gs.totalBurnedAmount

/-! ## Loading -/

variable {applications}

theorem GenesisState.of_validate {gs : GenesisState} (h : gs.validate applications = .ok ()) :
    gs.totalBurnedDenom = .islm ∧
      ∀ appID ∈ gs.executedApplications, appID.toNat < applications.length := by
  obtain ⟨_, _, h⟩ := except_bind_ok.mp h
  obtain ⟨hdenom, h⟩ := ite_error_ok.mp h
  split at h
  · rename_i hall
    refine ⟨not_not.mp hdenom, fun appID hmem => ?_⟩
    simpa [isApplicationExists] using List.all_eq_true.mp hall appID hmem
  · cases h

theorem burnAmountOf_eq {appID : UInt64} {application : BurnApplication}
    (h : applications[appID.toNat]? = some application) :
    burnAmountOf applications appID.toNat = application.burnAmount := by
  rw [burnAmountOf, h]
  rfl

structure Loaded (applications : List BurnApplication) (ids : List UInt64) (s s' : Stored) :
    Prop where
  params : s'.params = s.params
  totalBurned : s'.totalBurnedAmount = s.totalBurnedAmount
  fromApplications : s'.getTotalBurnedFromApplicationsAmount =
    s.getTotalBurnedFromApplicationsAmount +
      (ids.map fun appID => burnAmountOf applications appID.toNat).sum
  executed : s'.executedApplications =
    s.executedApplications ∪ ids.toFinset.image executedApplicationStoreKey

theorem loadExecuted_eq_some {ids : List UInt64}
    (hids : ∀ appID ∈ ids, appID.toNat < applications.length) {s : Stored}
    (hs : 0 ≤ s.getTotalBurnedFromApplicationsAmount) :
    ∃ s', loadExecuted applications ids s = some s' ∧ Loaded applications ids s s' := by
  induction ids generalizing s with
  | nil => exact ⟨s, rfl, rfl, rfl, by simp, by simp⟩
  | cons appID ids ih =>
    obtain ⟨application, happ⟩ : ∃ application, applications[appID.toNat]? = some application :=
      ⟨_, List.getElem?_eq_getElem (hids appID (by simp))⟩
    set next : Stored := { s.setApplicationAsExecuted appID with
      totalBurnedFromApplicationsAmount :=
        some (s.getTotalBurnedFromApplicationsAmount + application.burnAmount) } with hnext
    have hadd : (s.setApplicationAsExecuted appID).addToTotalBurnedFromApplicationsAmount
        application.burnAmount = some next := by
      refine if_neg ?_
      simp only [Stored.setApplicationAsExecuted, Stored.getTotalBurnedFromApplicationsAmount]
        at hs ⊢
      omega
    have hfrom : next.getTotalBurnedFromApplicationsAmount =
        s.getTotalBurnedFromApplicationsAmount + application.burnAmount := rfl
    obtain ⟨s', hload, hloaded⟩ :=
      ih (fun id hmem => hids id (by simp [hmem])) (s := next) (by omega)
    refine ⟨s', ?_, hloaded.params, hloaded.totalBurned, ?_, ?_⟩
    · simp only [loadExecuted, happ, Option.bind_eq_bind, Option.bind_some, hadd]
      exact hload
    · rw [hloaded.fromApplications, hfrom, List.map_cons, List.sum_cons, burnAmountOf_eq happ]
      push_cast
      ring
    · rw [hloaded.executed, hnext]
      ext key
      simp only [Stored.setApplicationAsExecuted, Finset.mem_union, Finset.mem_insert,
        Finset.mem_image, List.mem_toFinset, List.mem_cons]
      grind

theorem initGenesis_eq_some {gs : GenesisState} (hdenom : gs.totalBurnedDenom = .islm)
    (hids : ∀ appID ∈ gs.executedApplications, appID.toNat < applications.length) :
    ∃ s, initGenesis applications gs = some s ∧ s.params = gs.params ∧
      s.getTotalBurnedAmount = gs.totalBurnedAmount ∧
      s.getTotalBurnedFromApplicationsAmount = ((gs.executedApplications.map
        fun appID => burnAmountOf applications appID.toNat).sum : Int) ∧
      s.executedApplications =
        gs.executedApplications.toFinset.image executedApplicationStoreKey := by
  set total : Option Int := if gs.totalBurnedAmount = 0 then none else some gs.totalBurnedAmount
    with htotal
  obtain ⟨s, hload, hloaded⟩ := loadExecuted_eq_some hids
    (s := ⟨gs.params, total, none, ∅⟩) (by simp [Stored.getTotalBurnedFromApplicationsAmount])
  refine ⟨s, ?_, hloaded.params, ?_, ?_, by simp [hloaded.executed]⟩
  · rw [← hload, htotal, initGenesis]
    split <;> simp [hdenom]
  · rw [Stored.getTotalBurnedAmount, hloaded.totalBurned, htotal]
    split <;> simp [*]
  · rw [hloaded.fromApplications]
    simp [Stored.getTotalBurnedFromApplicationsAmount]

/-! ## The sum over distinct applications -/

theorem sum_toFinset_le {α : Type*} [DecidableEq α] (f : α → Nat) (l : List α) :
    ∑ a ∈ l.toFinset, f a ≤ (l.map f).sum := by
  induction l with
  | nil => simp
  | cons a l ih =>
    rw [List.toFinset_cons, List.map_cons, List.sum_cons]
    by_cases hmem : a ∈ l.toFinset
    · rw [Finset.insert_eq_of_mem hmem]
      omega
    · rw [Finset.sum_insert hmem]
      omega

theorem sum_map_eq_sum_toFinset_iff {α : Type*} [DecidableEq α] (f : α → Nat) (l : List α) :
    (l.map f).sum = ∑ a ∈ l.toFinset, f a ↔ (l.filter fun a => f a ≠ 0).Nodup := by
  induction l with
  | nil => simp
  | cons a l ih =>
    rw [List.toFinset_cons, List.map_cons, List.sum_cons]
    by_cases hmem : a ∈ l
    · rw [Finset.insert_eq_of_mem (List.mem_toFinset.mpr hmem)]
      by_cases hzero : f a = 0
      · rw [hzero, zero_add, ih, List.filter_cons_of_neg (by simp [hzero])]
      · -- the second occurrence counts
        have hle := sum_toFinset_le f l
        rw [List.filter_cons_of_pos (by simp [hzero]), List.nodup_cons]
        constructor
        · intro heq
          omega
        · intro hnodup
          exact absurd (List.mem_filter.mpr ⟨hmem, by simp [hzero]⟩) hnodup.1
    · rw [Finset.sum_insert (by simpa using hmem), add_right_inj, ih]
      by_cases hzero : f a = 0
      · rw [List.filter_cons_of_neg (by simp [hzero])]
      · rw [List.filter_cons_of_pos (by simp [hzero]), List.nodup_cons]
        have hnot : a ∉ l.filter fun a => f a ≠ 0 := fun h => hmem (List.mem_filter.mp h).1
        exact ⟨fun h => ⟨hnot, h⟩, fun h => h.2⟩

theorem sum_storeKeys (ids : Finset UInt64) :
    ∑ key ∈ ids.image executedApplicationStoreKey,
        burnAmountOf applications (decodeStoreKey key).toNat =
      ∑ appID ∈ ids, burnAmountOf applications appID.toNat := by
  rw [Finset.sum_image executedApplicationStoreKey_injective.injOn]
  simp only [decodeStoreKey_executedApplicationStoreKey]

theorem sum_ids_le_sumAll {ids : Finset UInt64}
    (hids : ∀ appID ∈ ids, appID.toNat < applications.length) :
    ∑ appID ∈ ids, burnAmountOf applications appID.toNat ≤ sumAll applications := by
  have hinj : Set.InjOn UInt64.toNat ids := fun _ _ _ _ h => UInt64.toNat_inj.mp h
  calc ∑ appID ∈ ids, burnAmountOf applications appID.toNat
      = ∑ id ∈ ids.image UInt64.toNat, burnAmountOf applications id :=
        (Finset.sum_image hinj).symm
    _ ≤ ∑ id ∈ Finset.range applications.length, burnAmountOf applications id := by
        refine Finset.sum_le_sum_of_subset fun id hmem => ?_
        obtain ⟨appID, hid, rfl⟩ := Finset.mem_image.mp hmem
        exact Finset.mem_range.mpr (hids appID hid)
    _ = sumAll applications := by rw [sum_burnAmountOf, sumBefore_length]

/-! ## Reachable states -/

def Known (applications : List BurnApplication) (s : Stored) : Prop :=
  ∀ key ∈ s.executedApplications, ∃ appID : UInt64,
    appID.toNat < applications.length ∧ key = executedApplicationStoreKey appID

theorem Known.step {s s' : Stored} (h : Known applications s) (hstep : Step applications s s') :
    Known applications s' := by
  cases hstep with
  | burn _ hadd =>
    cases (Option.ite_none_left_eq_some.mp hadd).2
    exact h
  | @application s₁ s₂ appID application hexists _ _ hadd hadd' =>
    cases (Option.ite_none_left_eq_some.mp hadd).2
    cases (Option.ite_none_left_eq_some.mp hadd').2
    intro key hkey
    rcases Finset.mem_insert.mp hkey with rfl | hkey
    · exact ⟨appID, (List.getElem?_eq_some_iff.mp hexists).1, rfl⟩
    · exact h key hkey
  | params => exact h

theorem Known.reaches {s s' : Stored} (h : Known applications s)
    (hreach : Reaches applications s s') : Known applications s' := by
  induction hreach with
  | refl => exact h
  | tail _ hstep ih => exact ih.step hstep

theorem Known.storeKeys {s : Stored} (h : Known applications s) :
    s.getAllExecutedApplicationsIDs.toFinset.image executedApplicationStoreKey =
      s.executedApplications := by
  ext key
  simp only [Stored.getAllExecutedApplicationsIDs, Finset.mem_image, List.mem_toFinset,
    List.mem_map, Tally.mem_sorted]
  constructor
  · rintro ⟨appID, ⟨key', hkey', rfl⟩, rfl⟩
    obtain ⟨id, _, rfl⟩ := h key' hkey'
    rw [decodeStoreKey_executedApplicationStoreKey]
    exact hkey'
  · intro hkey
    obtain ⟨id, _, rfl⟩ := h key hkey
    exact ⟨id, ⟨_, hkey, decodeStoreKey_executedApplicationStoreKey id⟩, rfl⟩

theorem Known.lt_length {s : Stored} (h : Known applications s) :
    ∀ appID ∈ s.getAllExecutedApplicationsIDs, appID.toNat < applications.length := by
  intro appID hmem
  obtain ⟨key, hkey, rfl⟩ := List.mem_map.mp hmem
  obtain ⟨id, hid, rfl⟩ := h key (Tally.mem_sorted.mp hkey)
  rwa [decodeStoreKey_executedApplicationStoreKey]

theorem Known.roundTrips {s : Stored} (h : Known applications s) : RoundTrips applications s := by
  obtain ⟨s', hinit, hparams, htotal, _, hexecuted⟩ :=
    @initGenesis_eq_some applications (exportGenesis s) rfl h.lt_length
  exact ⟨s', hinit, hparams, htotal, hexecuted.trans h.storeKeys⟩

/-- **Genesis.**  A genesis state that passes `Validate` is sound exactly if it lists no
burning application twice and its total covers the applications. -/
theorem genesis_sound_iff (gs : GenesisState) (hvalid : gs.validate applications = .ok ()) :
    gs.Sound applications ↔ gs.Matching applications := by
  obtain ⟨hdenom, hids⟩ := GenesisState.of_validate hvalid
  obtain ⟨s, hinit, _, htotal, hfrom, hexecuted⟩ := initGenesis_eq_some hdenom hids
  have hsum : executedSum applications s =
      ∑ appID ∈ gs.executedApplications.toFinset, burnAmountOf applications appID.toNat := by
    rw [executedSum, hexecuted, sum_storeKeys]
  have hdistinct := sum_map_eq_sum_toFinset_iff
    (fun appID : UInt64 => burnAmountOf applications appID.toNat) gs.executedApplications
  constructor
  · rintro ⟨⟨s', hinit', hconsistent, _⟩, _, _⟩
    cases hinit.symm.trans hinit'
    have heq := hconsistent.eq_executedSum
    have hle := hconsistent.le_totalBurned
    rw [hfrom, hsum] at heq
    rw [hfrom, htotal] at hle
    exact ⟨hdistinct.mp (by exact_mod_cast heq), hle⟩
  · rintro ⟨hnodup, hle⟩
    have heq := hdistinct.mpr hnodup
    have hall : ∑ appID ∈ gs.executedApplications.toFinset,
        burnAmountOf applications appID.toNat ≤ sumAll applications :=
      sum_ids_le_sumAll fun appID hmem => hids appID (List.mem_toFinset.mp hmem)
    have hknown : Known applications s := by
      intro key hkey
      rw [hexecuted] at hkey
      obtain ⟨appID, hmem, rfl⟩ := Finset.mem_image.mp hkey
      exact ⟨appID, hids appID (List.mem_toFinset.mp hmem), rfl⟩
    have hleAll : s.getTotalBurnedFromApplicationsAmount ≤ sumAll applications := by
      rw [hfrom, heq]
      exact_mod_cast hall
    have hleTotal : s.getTotalBurnedFromApplicationsAmount ≤ s.getTotalBurnedAmount := by
      rw [hfrom, htotal]
      exact hle
    refine ⟨⟨s, hinit, ⟨hleAll, hleTotal, ?_, fun hne => ?_⟩,
      fun s' hreach => (hknown.reaches hreach).roundTrips⟩,
      executedApplicationStoreKey_injective, decodeStoreKey_executedApplicationStoreKey⟩
    · rw [hfrom, hsum, heq]
    · rw [islmTotalBurnedBefore, List.getLast?_eq_some_getLast hne]
      simp only [Option.bind_eq_bind, Option.bind_some]
      rw [if_neg (by omega)]
      rfl

/-! ## The keeper -/

theorem isApplicationExecuted_set {s : Stored} {appID appID' : UInt64} :
    (s.setApplicationAsExecuted appID).isApplicationExecuted appID' = true ↔
      appID' = appID ∨ s.isApplicationExecuted appID' = true := by
  simp only [Stored.isApplicationExecuted, Stored.setApplicationAsExecuted, decide_eq_true_eq,
    Finset.mem_insert, executedApplicationStoreKey_injective.eq_iff]

structure Models (ethiq : State) (s : Stored) : Prop where
  params : s.params =
    ⟨ethiq.enabled, ethiq.minMintPerTx, ethiq.maxMintPerTx, ethiq.maxSupply⟩
  totalBurned : s.getTotalBurnedAmount = ethiq.totalBurned
  fromApplications : s.getTotalBurnedFromApplicationsAmount = ethiq.totalBurnedFromApplications
  executed : ∀ appID : UInt64, s.isApplicationExecuted appID = true ↔
    appID.toNat ∈ ethiq.executed

section Keeper

variable {S : Type} {cfg : Config S} {st st' : ChainState S} {s : Stored}

theorem Models.burnIslmForHaqq (h : Models st.modules.ethiq s) {islmAmount haqqAmount : Nat}
    {fromAddress toAddress : Address}
    (hrun : (Ethiq.burnIslmForHaqq cfg islmAmount fromAddress toAddress).run st =
      .ok haqqAmount st') :
    ∃ s', Step cfg.applications s s' ∧ Models st'.modules.ethiq s' := by
  obtain ⟨hpos, _, _, heffect, _⟩ := burnIslmForHaqq_effect hrun
  have htotal := h.totalBurned
  refine ⟨_, @Step.burn _ s _ islmAmount (by omega) (if_neg (by omega)), ?_⟩
  rw [heffect.sold.1]
  exact ⟨h.params, congrArg (· + (islmAmount : Int)) htotal, h.fromApplications, h.executed⟩

section

variable (hlist : Contiguous cfg.applications) (hlength : cfg.applications.length ≤ 2 ^ 64)
  (h : Models st.modules.ethiq s)

include hlist hlength h

theorem Models.burnIslmForHaqqByApplicationID {fromAddress : Address} {appId : Nat}
    {r : Nat × Address}
    (hrun : (Ethiq.burnIslmForHaqqByApplicationID cfg fromAddress appId).run st = .ok r st') :
    ∃ s', Step cfg.applications s s' ∧ Models st'.modules.ethiq s' := by
  obtain ⟨application, happ, hexecuted, hcanceled, _, _, _, _, mid, heffect, rfl⟩ :=
    burnIslmForHaqqByApplicationID_effect hrun
  obtain ⟨hid, _⟩ := hlist appId application happ
  have hlt : appId < 2 ^ 64 := (List.getElem?_eq_some_iff.mp happ).1.trans_le hlength
  have htoNat : (UInt64.ofNat appId).toNat = appId := UInt64.toNat_ofNat_of_lt' hlt
  have htotal := h.totalBurned
  have hfrom := h.fromApplications
  have hnonneg : ¬ s.getTotalBurnedFromApplicationsAmount + application.burnAmount < 0 := by omega
  refine ⟨_, .application (by rw [htoNat]; exact happ) ?_ ?_ (if_neg (by omega))
    (if_neg hnonneg), ?_⟩
  · rw [Bool.eq_false_iff, ne_eq, h.executed, htoNat, ← hid]
    exact hexecuted
  · simpa [BurnApplication.isCanceled] using hcanceled
  · rw [Store.setEthiq_modules, heffect.sold.1]
    refine ⟨h.params, congrArg (· + (application.burnAmount : Int)) htotal,
      congrArg (· + (application.burnAmount : Int)) hfrom, fun appID => ?_⟩
    rw [isApplicationExecuted_set, Finset.mem_insert, ← UInt64.toNat_inj, htoNat]
    exact or_congr Iff.rfl (h.executed appID)

theorem Models.step (tx : Tx Msg) :
    ∃ s', Reaches cfg.applications s s' ∧ Models (Ethiq.step cfg st tx).modules.ethiq s' := by
  obtain ⟨now, msg⟩ := tx
  -- the waitlist does not depend on the time of the block
  have hlistNow : Contiguous (cfg.atTime now).applications := hlist
  have hlengthNow : (cfg.atTime now).applications.length ≤ 2 ^ 64 := hlength
  cases hrun : (msg.handle (cfg.atTime now)).run st with
  | error e st' =>
    simp only [Ethiq.step, deliver, hrun]
    exact ⟨s, .refl, h⟩
  | ok u st' =>
    simp only [Ethiq.step, deliver, hrun]
    cases msg with
    | mintHaqq fromAddress toAddress islmAmount =>
      simp only [Msg.handle, run_bind_ok, run_pure_ok] at hrun
      obtain ⟨_, _, hburn, _, rfl⟩ := hrun
      obtain ⟨s', hstep, hmodels⟩ := h.burnIslmForHaqq hburn
      exact ⟨s', .single hstep, hmodels⟩
    | mintHaqqByApplication fromAddress appId =>
      simp only [Msg.handle, run_bind_ok, run_pure_ok] at hrun
      obtain ⟨_, _, hburn, _, rfl⟩ := hrun
      obtain ⟨s', hstep, hmodels⟩ := h.burnIslmForHaqqByApplicationID hlistNow hlengthNow hburn
      exact ⟨s', .single hstep, hmodels⟩

theorem Models.run (txs : List (Tx Msg)) :
    ∃ s', Reaches cfg.applications s s' ∧
      Models (Run.after (Ethiq.step cfg) st txs).modules.ethiq s' := by
  induction txs generalizing st s with
  | nil => exact ⟨s, .refl, h⟩
  | cons tx txs ih =>
    obtain ⟨mid, hfirst, hmid⟩ := h.step hlist hlength tx
    obtain ⟨s', hrest, hs'⟩ := ih hmid
    exact ⟨s', hfirst.trans hrest, hs'⟩

end

end Keeper

def oneExecuted : GenesisState := ⟨⟨true, 1, 100, 100⟩, .islm, 400, [1]⟩

def repeatedApplication : GenesisState := ⟨⟨true, 1, 100, 100⟩, .islm, 0, [0, 0]⟩

theorem oneExecuted_sound :
    oneExecuted.validate waitlistConfig.applications = .ok () ∧
      oneExecuted.Sound waitlistConfig.applications := by
  have hvalid : oneExecuted.validate waitlistConfig.applications = .ok () := by decide +kernel
  exact ⟨hvalid, (genesis_sound_iff oneExecuted hvalid).mpr ⟨by decide +kernel, by decide +kernel⟩⟩

/-- The loaded total from applications is neither covered by the total nor that of the
distinct applications, and selling panics. -/
theorem repeatedApplication_panics :
    repeatedApplication.validate waitlistConfig.applications = .ok () ∧
      ((initGenesis waitlistConfig.applications repeatedApplication).map fun s =>
        (s.getTotalBurnedFromApplicationsAmount, s.getTotalBurnedAmount,
          executedSum waitlistConfig.applications s, sumAll waitlistConfig.applications,
          islmTotalBurnedBefore waitlistConfig.applications s)) =
        some (1200, 0, 600, 900, none) := by
  decide +kernel

end Haqq.Ethiq
