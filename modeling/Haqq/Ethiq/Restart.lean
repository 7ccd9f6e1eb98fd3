import Haqq.Ethiq.Genesis

/-!
# Restarts of the ethiq module

At any point of a run the store of the keeper can be exported and loaded again: `InitGenesis` adds
the total from applications up from the list of the executed ones.

`restarts_of_run` is the result, `Summed.step` the invariant it needs.
-/

namespace Haqq.Ethiq

open Lib

variable {applications : List BurnApplication} {s s' : Stored} {ids : List UInt64}

structure Summed (applications : List BurnApplication) (s : Stored) : Prop where
  known : Known applications s
  fromApplications : s.getTotalBurnedFromApplicationsAmount = executedSum applications s

theorem summed_of_loaded (hids : ∀ appID ∈ ids, appID.toNat < applications.length)
    (hnodup : (ids.filter fun appID => burnAmountOf applications appID.toNat ≠ 0).Nodup)
    (hfrom : s.getTotalBurnedFromApplicationsAmount =
      ((ids.map fun appID => burnAmountOf applications appID.toNat).sum : Int))
    (hexecuted : s.executedApplications = ids.toFinset.image executedApplicationStoreKey) :
    Summed applications s := by
  refine ⟨fun key hkey => ?_, ?_⟩
  · rw [hexecuted] at hkey
    obtain ⟨appID, hmem, rfl⟩ := Finset.mem_image.mp hkey
    exact ⟨appID, hids appID (List.mem_toFinset.mp hmem), rfl⟩
  · rw [hfrom, executedSum, hexecuted, sum_storeKeys, (sum_map_eq_sum_toFinset_iff _ _).mpr hnodup]

theorem Summed.step (h : Summed applications s) (hstep : Step applications s s') :
    Summed applications s' := by
  refine ⟨h.known.step hstep, ?_⟩
  have hfrom := h.fromApplications
  cases hstep with
  | burn _ hadd =>
    simp only [Stored.addToTotalBurnedAmount, Option.ite_none_left_eq_some,
      Option.some.injEq] at hadd
    obtain ⟨-, rfl⟩ := hadd
    exact hfrom
  | @application s₁ s₂ appID application hexists hexecuted _ hadd hadd' =>
    simp only [Stored.addToTotalBurnedAmount, Stored.addToTotalBurnedFromApplicationsAmount,
      Option.ite_none_left_eq_some, Option.some.injEq] at hadd hadd'
    obtain ⟨-, rfl⟩ := hadd
    obtain ⟨-, rfl⟩ := hadd'
    have hnew : executedApplicationStoreKey appID ∉ s.executedApplications := by
      simpa [Stored.isApplicationExecuted] using hexecuted
    show s.getTotalBurnedFromApplicationsAmount + (application.burnAmount : Int) =
      ((∑ key ∈ insert _ s.executedApplications, _ : Nat) : Int)
    rw [Finset.sum_insert hnew, decodeStoreKey_executedApplicationStoreKey, burnAmountOf_eq hexists,
      hfrom, executedSum, Nat.cast_add, add_comm]
  | params => exact hfrom

theorem Summed.reaches (h : Summed applications s) (hreach : Reaches applications s s') :
    Summed applications s' := by
  induction hreach with
  | refl => exact h
  | tail _ hstep ih => exact ih.step hstep

theorem Known.nodup_ids (h : Known applications s) : s.getAllExecutedApplicationsIDs.Nodup := by
  refine List.Nodup.map_on (fun key hkey key' hkey' heq => ?_) (Tally.nodup_sorted _)
  obtain ⟨id, _, rfl⟩ := h key (Tally.mem_sorted.mp hkey)
  obtain ⟨id', _, rfl⟩ := h key' (Tally.mem_sorted.mp hkey')
  rw [decodeStoreKey_executedApplicationStoreKey, decodeStoreKey_executedApplicationStoreKey] at heq
  rw [heq]

variable {S : Type}

/-- In every run from a genesis state that lists no burning application twice, what is exported and
loaded again models the same state of the keeper. -/
theorem restarts_of_run (cfg : Config S) (gs : GenesisState) (s : Stored) (st : ChainState S)
    (txs : List (Tx Msg)) (hlist : Contiguous cfg.applications)
    (hlength : cfg.applications.length ≤ 2 ^ 64)
    (hvalid : gs.validate cfg.applications = .ok ())
    (hnodup : (gs.executedApplications.filter
      fun appID => burnAmountOf cfg.applications appID.toNat ≠ 0).Nodup)
    (hinit : initGenesis cfg.applications gs = some s) (hst : Models st.modules.ethiq s)
    (st' : ChainState S) (hst' : st' = Run.after (step cfg) st txs) :
    ∃ s' loaded, Reaches cfg.applications s s' ∧ Models st'.modules.ethiq s' ∧
      initGenesis cfg.applications (exportGenesis s') = some loaded ∧
      Models st'.modules.ethiq loaded := by
  obtain ⟨hdenom, hids⟩ := GenesisState.of_validate hvalid
  obtain ⟨first, hfirst, _, _, hfrom, hexecuted⟩ := initGenesis_eq_some hdenom hids
  cases hinit.symm.trans hfirst
  obtain ⟨s', hreach, hmodels⟩ := hst.run hlist hlength txs
  rw [← hst'] at hmodels
  have hs' := (summed_of_loaded hids hnodup hfrom hexecuted).reaches hreach
  -- the exported list is as good as that of the first genesis state
  obtain ⟨loaded, hload, hparams, htotal, hfrom', hexecuted'⟩ :=
    @initGenesis_eq_some cfg.applications (exportGenesis s') rfl hs'.known.lt_length
  have hloaded :=
    summed_of_loaded hs'.known.lt_length (hs'.known.nodup_ids.filter _) hfrom' hexecuted'
  have hsame : loaded.executedApplications = s'.executedApplications :=
    hexecuted'.trans hs'.known.storeKeys
  refine ⟨s', loaded, hreach, hmodels, hload, hparams.trans hmodels.params,
    htotal.trans hmodels.totalBurned, ?_, fun appID => ?_⟩
  · rw [hloaded.fromApplications, executedSum, hsame, ← executedSum, ← hs'.fromApplications]
    exact hmodels.fromApplications
  · rw [Stored.isApplicationExecuted, hsame]
    exact hmodels.executed appID

def restartedState : ChainState Unit := fundedState.setEthiq ⟨true, 1, 100, 100, 400, 300, {1}⟩

theorem waitlistRun_restarts : ∃ s s' loaded,
    initGenesis waitlistConfig.applications oneExecuted = some s ∧
    Reaches waitlistConfig.applications s s' ∧
    initGenesis waitlistConfig.applications (exportGenesis s') = some loaded ∧
    Models (Run.after (step waitlistConfig) restartedState waitlistRun).modules.ethiq loaded := by
  have hinit : initGenesis waitlistConfig.applications oneExecuted =
      some ⟨⟨true, 1, 100, 100⟩, some 400, some 300, {executedApplicationStoreKey 1}⟩ := by
    decide +kernel
  have hmodels : Models restartedState.modules.ethiq
      ⟨⟨true, 1, 100, 100⟩, some 400, some 300, {executedApplicationStoreKey 1}⟩ := by
    refine ⟨rfl, rfl, rfl, fun appID => ?_⟩
    simp only [Stored.isApplicationExecuted, Finset.mem_singleton, decide_eq_true_eq,
      executedApplicationStoreKey_injective.eq_iff, restartedState, Store.setEthiq_modules]
    exact UInt64.toNat_inj.symm
  obtain ⟨s', loaded, hreach, _, hload, hloaded⟩ := restarts_of_run waitlistConfig oneExecuted _
    restartedState waitlistRun waitlistConfig_contiguous (by decide) (by decide +kernel)
    (by decide +kernel) hinit hmodels _ rfl
  exact ⟨_, s', loaded, hinit, hreach, hload, hloaded⟩

end Haqq.Ethiq
