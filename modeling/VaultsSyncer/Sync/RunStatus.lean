import VaultsSyncer.Sync.RunAudit
import VaultsSyncer.Sync.SecretAudit
import VaultsSyncer.Sync.WorkerPool

/-! The status in `syncs_run` against what became of the pairs of a run. It is found from two counts:

        success = 0          failed
        failure > 0          partial
        otherwise            success

    so a run without any pair to sync has failed. -/

namespace VaultsSyncer

open GoStd Schemes Schemes.Prog

/-- The status says what became of the pairs: all succeeded, some did and some did not, or there were
    some and none did. -/
structure StatusTruthful {n : ℕ} (status : String) (ok : Fin n → Bool) : Prop where
  success : status = "success" ↔ ∀ i, ok i = true
  mixed : status = "partial" ↔ (∃ i, ok i = false) ∧ ∃ i, ok i = true
  failed : status = "failed" ↔ 0 < n ∧ ∀ i, ok i = false

/-- Of counts that fit the pairs, the status is truthful where there are pairs. -/
theorem statusTruthful_iff {n : ℕ} {ok : Fin n → Bool} {result : SyncResult}
    (hsuccess : result.success = 0 ↔ ∀ i, ok i = false)
    (hfailure : result.failure = 0 ↔ ∀ i, ok i = true) :
    StatusTruthful (runStatus result) ok ↔ 0 < n := by
  have hsome : (∃ i, ok i = true) ↔ ¬∀ i, ok i = false := by simp
  have hsome' : (∃ i, ok i = false) ↔ ¬∀ i, ok i = true := by simp
  constructor
  · intro h
    rcases n with _ | n
    · have hzero : result.success = 0 := hsuccess.mpr fun i => i.elim0
      have hstatus := h.success.mpr fun i => i.elim0
      rw [runStatus, if_pos hzero] at hstatus
      exact absurd hstatus (by decide)
    · exact Nat.succ_pos n
  · intro hn
    let i₀ : Fin n := ⟨0, hn⟩
    rw [runStatus]
    split_ifs with hzero hpos
    · have hall := hsuccess.mp hzero
      refine ⟨iff_of_false (by decide) fun h => ?_, iff_of_false (by decide) fun h => ?_, ?_⟩
      · exact absurd ((hall i₀).symm.trans (h i₀)) (by decide)
      · exact hsome.mp h.2 hall
      · exact iff_of_true rfl ⟨hn, hall⟩
    · have hnone := mt hsuccess.mpr hzero
      have hlost := mt hfailure.mpr hpos.ne'
      exact ⟨iff_of_false (by decide) hlost, iff_of_true rfl ⟨hsome'.mpr hlost, hsome.mpr hnone⟩,
        iff_of_false (by decide) fun h => hnone h.2⟩
    · have hnone := mt hsuccess.mpr hzero
      have hall := hfailure.mp (Nat.eq_zero_of_not_pos hpos)
      exact ⟨iff_of_true rfl hall, iff_of_false (by decide) fun h => hsome'.mp h.1 hall,
        iff_of_false (by decide) fun h => hnone h.2⟩

/-! ### The pairs of a run -/

/-- A run of `ExecuteSync` with all listings at hand: the pairs it attempts, whether each of them
    succeeded, and the world it leaves. -/
inductive PairsSynced (e : Engine) (syncCfg : SyncConfig) (a : RunAnswers) (env : String × String → Env)
    (w : World) : (n : ℕ) → (Fin n → String × String) → (Fin n → Bool) → World → Prop
  | goroutines {n : ℕ} {pool : Pool.Setup Call Call.Ans Env World n} {pair : Fin n → String × String}
      {s : Pool.State Call Call.Ans Env World n} {ok : Fin n → Bool}
      (h : Goroutines e syncCfg a env pool pair) (hs : Pool.Reaches pool w s) (hr : s.returned = true)
      (hok : ∀ i, s.phase i = .finished (ok i)) :
      PairsSynced e syncCfg a env w n pair ok
        (recordSyncRun a syncCfg.id (runStatus ⟨s.success, s.failure⟩) ⟨s.success, s.failure⟩ ""
          s.shared)
  | otherType (hsource : syncCfg.source ∈ e.backends) (hlist : a.listing.Works)
      (htype : syncCfg.syncType ≠ "unidirectional" ∧ syncCfg.syncType ≠ "bidirectional") :
      PairsSynced e syncCfg a env w 0 Fin.elim0 Fin.elim0
        (recordSyncRun a syncCfg.id (runStatus ⟨0, 0⟩) ⟨0, 0⟩ "" w)

section Runs

variable {e : Engine} {syncCfg : SyncConfig} {a : RunAnswers} {env : String × String → Env} {w w' : World}
  {n : ℕ}

/-- The runs that return no error are the runs through their pairs. -/
theorem executeSync_iff_pairsSynced (hlist : a.listing.Works) (hrelist : a.relisting.Works) :
    ExecuteSync e syncCfg a env w (.ok ()) w' ↔
      ∃ n pair ok, PairsSynced e syncCfg a env w n pair ok w' := by
  constructor
  · intro h
    have hfinish {n : ℕ} {pool : Pool.Setup Call Call.Ans Env World n} {pair : Fin n → String × String}
        {s : Pool.State Call Call.Ans Env World n} (hg : Goroutines e syncCfg a env pool pair)
        (hs : Pool.Reaches pool w s) (hr : s.returned = true) :
        ∃ n pair ok, PairsSynced e syncCfg a env w n pair ok
          (recordSyncRun a syncCfg.id (runStatus ⟨s.success, s.failure⟩) ⟨s.success, s.failure⟩ ""
            s.shared) := by
      choose ok hok using hs.inv.all_finished hr
      exact ⟨_, _, ok, .goroutines hg hs hr hok⟩
    cases h with
    | unidirectional hsource _ htype hrun =>
      cases hrun with
      | unlisted h => exact absurd hrelist h
      | returned _ hs hr => exact hfinish (.unidirectional hsource hlist hrelist htype) hs hr
    | bidirectional hsource _ htype hfirst htarget hrun =>
      cases hrun with
      | unlisted h => exact absurd hrelist h
      | returned _ hs hr =>
        exact hfinish (.bidirectional hsource hlist hrelist htype hfirst htarget) hs hr
    | otherType hsource _ htype => exact ⟨0, _, _, .otherType hsource hlist htype⟩
  · rintro ⟨n, pair, ok, h⟩
    cases h with
    | goroutines hg hs hr => exact hg.executeSync hs hr
    | otherType hsource _ htype => exact .otherType hsource hlist htype

/-- There is something to sync: a name that passes the filter, and for a unidirectional sync a target. -/
def SyncConfig.HasPairs (syncCfg : SyncConfig) (names : List String) : Prop :=
  (syncCfg.syncType = "unidirectional" ∧ syncCfg.targets ≠ [] ∨ syncCfg.syncType = "bidirectional") ∧
    ∃ name ∈ names, syncCfg.filter.Passes name

theorem Goroutines.pos_iff {pool : Pool.Setup Call Call.Ans Env World n} {pair : Fin n → String × String}
    (h : Goroutines e syncCfg a env pool pair) : 0 < n ↔ syncCfg.HasPairs a.relisting.names := by
  have hexists : (∃ name ∈ a.relisting.names, syncCfg.filter.Passes name) ↔
      0 < (filterSecrets a.relisting.names syncCfg.filter).length := by
    rw [List.length_pos_iff_exists_mem]
    simp only [mem_filterSecrets]
  unfold SyncConfig.HasPairs
  rw [hexists]
  cases h with
  | unidirectional _ _ _ htype =>
    simp [htype, length_unidirectionalJobs, Nat.pos_iff_ne_zero, and_comm]
  | bidirectional _ _ _ htype => simp [htype]

/-- The counts of a pool say whether some task succeeded, and whether some task failed. -/
theorem counts_eq_zero {s : Pool.State Call Call.Ans Env World n} {ok : Fin n → Bool} (hs : Pool.Inv s)
    (hr : s.returned = true) (hok : ∀ i, s.phase i = .finished (ok i)) :
    (s.success = 0 ↔ ∀ i, ok i = false) ∧ (s.failure = 0 ↔ ∀ i, ok i = true) := by
  obtain ⟨hsuccess, hfailure, -⟩ := hs.counted hr
  constructor
  · rw [hsuccess, Finset.sum_eq_zero_iff]
    simp [hok, Pool.Phase.voted]
  · rw [hfailure, Finset.sum_eq_zero_iff]
    simp [hok, Pool.Phase.voted]

/-- A row added by `recordSyncRun` has the status it was given. -/
theorem status_of_recorded {syncID status : String} {result : SyncResult} {w₁ : World} {run : SyncRun}
    (hrow : (recordSyncRun a syncID status result "" w₁).syncsRun = w₁.syncsRun ++ [run]) :
    run.status = status := by
  by_cases hrecord : a.record.Works
  · obtain ⟨run', hrow', -, hstatus, -⟩ := recordSyncRun_syncsRun hrecord syncID status result "" w₁
    obtain rfl : run = run' := by simpa using hrow.symm.trans hrow'
    exact hstatus
  · rw [recordSyncRun_lost hrecord] at hrow
    simp at hrow

/-- The status of the row is truthful exactly if there was a pair to sync. -/
theorem PairsSynced.status_iff {pair : Fin n → String × String} {ok : Fin n → Bool} {run : SyncRun}
    (h : PairsSynced e syncCfg a env w n pair ok w') (hrow : w'.syncsRun = w.syncsRun ++ [run]) :
    StatusTruthful run.status ok ↔ syncCfg.HasPairs a.relisting.names := by
  cases h with
  | goroutines hg hs hr hok =>
    obtain ⟨hsuccess, hfailure⟩ := counts_eq_zero hs.inv hr hok
    rw [← hg.syncsRun_eq hs] at hrow
    rw [status_of_recorded hrow, statusTruthful_iff hsuccess hfailure, hg.pos_iff]
  | otherType _ _ htype =>
    rw [status_of_recorded hrow, statusTruthful_iff (by simp) (by simp)]
    simp [SyncConfig.HasPairs, htype]

/-- A run whose listings work and that adds a row has gone through its pairs, and the status in the row
    is truthful exactly if there were some. -/
theorem status_truthful_iff (hlist : a.listing.Works) (hrelist : a.relisting.Works)
    {r : Except GoError Unit} (hrun : ExecuteSync e syncCfg a env w r w') {run : SyncRun}
    (hrow : w'.syncsRun = w.syncsRun ++ [run]) :
    (∃ n pair ok, PairsSynced e syncCfg a env w n pair ok w') ∧
      ∀ n pair (ok : Fin n → Bool), PairsSynced e syncCfg a env w n pair ok w' →
        (StatusTruthful run.status ok ↔ syncCfg.HasPairs a.relisting.names) := by
  refine ⟨?_, fun n pair ok h => h.status_iff hrow⟩
  have hsame : w'.syncsRun ≠ w.syncsRun := by
    rw [hrow]
    simp
  cases hrun with
  | noSource | noTarget => exact absurd rfl hsame
  | unlisted _ hfault => exact absurd (hlist.symm.trans hfault) (by simp)
  | unidirectional h hl htype hpool =>
    exact (executeSync_iff_pairsSynced hlist hrelist).mp (.unidirectional h hl htype hpool)
  | bidirectional h hl htype hfirst htarget hpool =>
    exact (executeSync_iff_pairsSynced hlist hrelist).mp (.bidirectional h hl htype hfirst htarget hpool)
  | otherType h hl htype =>
    exact (executeSync_iff_pairsSynced hlist hrelist).mp (.otherType h hl htype)

end Runs

/-- One of two secrets cannot be written, and the row says that the run went well in part. -/
theorem status_truthful_iff_push : ∃ w' run, ExecuteSync pairEngine copySync copyAnswers copyEnv copyWorld
      (.ok ()) w' ∧ w'.syncsRun = [run] ∧ run.status = "partial" ∧
    (∃ n pair ok, PairsSynced pairEngine copySync copyAnswers copyEnv copyWorld n pair ok w') ∧
    ∀ n pair (ok : Fin n → Bool),
      PairsSynced pairEngine copySync copyAnswers copyEnv copyWorld n pair ok w' →
        (StatusTruthful run.status ok ↔ copySync.HasPairs ["k", "m"]) := by
  obtain ⟨s, hs, hend⟩ := Pool.exists_of_follow copyPool copyWorld copySchedule
    (fun s => (s.returned, s.success, s.failure)) (b := (true, 1, 1)) (by decide +kernel)
  simp only [Prod.mk.injEq] at hend
  obtain ⟨hr, hsuccess, hfailure⟩ := hend
  have hrun := copy_goroutines.executeSync hs hr
  rw [hsuccess, hfailure] at hrun
  obtain ⟨run, hrow, -, hstatus, -⟩ := recordSyncRun_syncsRun (a := copyAnswers) rfl copySync.id
    (runStatus ⟨1, 1⟩) ⟨1, 1⟩ "" s.shared
  rw [copy_goroutines.syncsRun_eq hs] at hrow
  exact ⟨_, run, hrun, hrow, hstatus, status_truthful_iff rfl rfl hrun hrow⟩

/-- A source without secrets: no pair fails, and the run is recorded as failed. -/
theorem empty_run_failed : ∃ w' run n pair ok,
    PairsSynced pairEngine pushSync {} (fun _ => noFaults) (pairWorld none none) n pair ok w' ∧
    w'.syncsRun = [run] ∧ run.status = "failed" ∧ n = 0 ∧ ¬StatusTruthful run.status ok := by
  obtain ⟨s, hs, hr⟩ := Pool.exists_of_follow (workerPool (unidirectionalJobs pushSync [])
      (fun job => syncSecretUnidirectional pairEngine pushSync job.2 job.1 "a") 1 fun _ => noFaults)
    (pairWorld none none) [.spawnCloser, .close, .finish] (fun s => s.returned) (b := true) (by decide)
  have hg : Goroutines pairEngine pushSync {} (fun _ => noFaults) _ _ :=
    .unidirectional (by decide) rfl rfl rfl
  choose ok hok using hs.inv.all_finished hr
  have hrun := PairsSynced.goroutines hg hs hr hok
  obtain ⟨hsuccess, hfailure⟩ := counts_eq_zero hs.inv hr hok
  have hzero : s.success = 0 := hsuccess.mpr fun i => i.elim0
  obtain ⟨run, hrow, -, hstatus, -⟩ := recordSyncRun_syncsRun (a := {}) rfl pushSync.id
    (runStatus ⟨s.success, s.failure⟩) ⟨s.success, s.failure⟩ "" s.shared
  have hfailed : run.status = "failed" := hstatus.trans (if_pos hzero)
  rw [hg.syncsRun_eq hs] at hrow
  refine ⟨_, run, _, _, ok, hrun, hrow, hfailed, rfl, fun h => ?_⟩
  exact absurd (h.failed.mp hfailed).1 (lt_irrefl _)

end VaultsSyncer
