import VaultsSyncer.Schemes.PoolRuns
import VaultsSyncer.Schemes.Rely
import VaultsSyncer.Sync.ExecuteSync

/-! The goroutines of one run of `ExecuteSync`, in either mode: which secret and target each of them
    attempts, and how what they do to the sync database is seen from outside, call by call. -/

namespace VaultsSyncer

open GoStd Schemes Schemes.Prog

/-- Syncs one secret with one target, in the mode of the sync. -/
def attempt (e : Engine) (syncCfg : SyncConfig) (job : String × String) : Sync (Except GoError Unit) :=
  if syncCfg.syncType = "bidirectional" then
    syncSecretBidirectional e syncCfg job.2 job.1 syncCfg.source job.2
  else syncSecretUnidirectional e syncCfg job.2 job.1 syncCfg.source

/-- What an attempt works on. -/
def attemptFootprint (syncCfg : SyncConfig) (job : String × String) : Footprint :=
  if syncCfg.syncType = "bidirectional" then bidirectionalFootprint syncCfg job.2 job.1
  else unidirectionalFootprint syncCfg job

theorem within_attempt (e : Engine) (syncCfg : SyncConfig) (job : String × String) :
    (attempt e syncCfg job).AllCalls (attemptFootprint syncCfg job).Within := by
  unfold attempt attemptFootprint
  split_ifs
  · exact within_syncSecretBidirectional ⟨.inl rfl, rfl⟩ ⟨.inr rfl, rfl⟩ ⟨.inl rfl, rfl⟩
      ⟨.inr rfl, rfl⟩ ⟨.inr rfl, rfl⟩ rfl
  · exact within_syncSecretUnidirectional ⟨rfl, rfl⟩ ⟨rfl, rfl⟩ rfl

/-- An attempt keeps one record. -/
theorem attemptFootprint_keys (syncCfg : SyncConfig) (job : String × String) :
    (attemptFootprint syncCfg job).keys = fun k => k = syncKey syncCfg job.2 job.1 := by
  unfold attemptFootprint
  split_ifs <;> rfl

/-- A call within a footprint adds no row to `syncs_run`. -/
theorem frame_syncsRun {F : Footprint} {op : Call} (hop : F.Within op) (env : Env) (w : World) :
    (handle op (env, w)).2.2.syncsRun = w.syncsRun := by
  rcases handle_cases op env w with h | ⟨vault, name, value, rfl, h⟩ | ⟨obj, t, rfl, h⟩ |
    ⟨obj, t, rfl, hl, h⟩ | ⟨run, rfl, h⟩
  · rw [h]
  · rw [h]
    rfl
  · rw [h]
    rfl
  · rw [h]
  · exact absurd hop id

/-- The goroutines that a run of `ExecuteSync` starts, and the secret and the target of each. -/
inductive Goroutines (e : Engine) (syncCfg : SyncConfig) (a : RunAnswers)
    (env : String × String → Env) :
    {n : ℕ} → Pool.Setup Call Call.Ans Env World n → (Fin n → String × String) → Prop
  | unidirectional (hsource : syncCfg.source ∈ e.backends) (hlist : a.listing.Works)
      (hrelist : a.relisting.Works) (htype : syncCfg.syncType = "unidirectional") :
      Goroutines e syncCfg a env
        (workerPool (unidirectionalJobs syncCfg a.relisting.names)
          (fun job => syncSecretUnidirectional e syncCfg job.2 job.1 syncCfg.source)
          syncCfg.workerCount env)
        fun i => (unidirectionalJobs syncCfg a.relisting.names)[i]
  | bidirectional {targetID : String} (hsource : syncCfg.source ∈ e.backends)
      (hlist : a.listing.Works) (hrelist : a.relisting.Works)
      (htype : syncCfg.syncType = "bidirectional") (hfirst : syncCfg.targets.head? = some targetID)
      (htarget : targetID ∈ e.backends) :
      Goroutines e syncCfg a env
        (workerPool (filterSecrets a.relisting.names syncCfg.filter)
          (fun secretName =>
            syncSecretBidirectional e syncCfg targetID secretName syncCfg.source targetID)
          syncCfg.workerCount fun secretName => env (secretName, targetID))
        fun i => ((filterSecrets a.relisting.names syncCfg.filter)[i], targetID)

section Goroutines

variable {e : Engine} {syncCfg : SyncConfig} {a : RunAnswers} {env : String × String → Env} {n : ℕ}
  {pool : Pool.Setup Call Call.Ans Env World n} {pair : Fin n → String × String}

theorem Goroutines.handler (h : Goroutines e syncCfg a env pool pair) : pool.handler = handle := by
  cases h <;> rfl

theorem Goroutines.answers (h : Goroutines e syncCfg a env pool pair) (i : Fin n) :
    pool.env i = env (pair i) := by
  cases h <;> rfl

theorem Goroutines.task (h : Goroutines e syncCfg a env pool pair) (i : Fin n) :
    pool.task i = worker (attempt e syncCfg (pair i)) := by
  cases h with
  | unidirectional _ _ _ htype =>
    have hne : ¬syncCfg.syncType = "bidirectional" := by rw [htype]; decide
    rw [attempt, if_neg hne]
    rfl
  | bidirectional _ _ _ htype =>
    rw [attempt, if_pos htype]
    rfl

/-- An attempt is for a secret that passes the filter, and for one of the targets. -/
theorem Goroutines.pair_mem (h : Goroutines e syncCfg a env pool pair) (i : Fin n) :
    syncCfg.filter.Passes (pair i).1 ∧ (pair i).2 ∈ syncCfg.targets := by
  cases h with
  | unidirectional =>
    have hjob : (unidirectionalJobs syncCfg a.relisting.names)[i] ∈
        (filterSecrets a.relisting.names syncCfg.filter).product syncCfg.targets :=
      List.getElem_mem (l := unidirectionalJobs syncCfg a.relisting.names) _
    obtain ⟨hname, htarget⟩ := List.mem_product.mp hjob
    exact ⟨(mem_filterSecrets.mp hname).2, htarget⟩
  | bidirectional _ _ _ _ hfirst =>
    have hname : (filterSecrets a.relisting.names syncCfg.filter)[i] ∈
        filterSecrets a.relisting.names syncCfg.filter := List.getElem_mem _
    exact ⟨(mem_filterSecrets.mp hname).2, List.mem_of_head? hfirst⟩

/-- A bidirectional sync has one target. -/
theorem Goroutines.targets_eq (h : Goroutines e syncCfg a env pool pair)
    (hb : syncCfg.syncType = "bidirectional") (i j : Fin n) : (pair i).2 = (pair j).2 := by
  cases h with
  | unidirectional _ _ _ htype => exact absurd (htype.symm.trans hb) (by decide)
  | bidirectional => rfl

theorem SyncConfig.one_le_workerCount (syncCfg : SyncConfig) : 1 ≤ syncCfg.workerCount := by
  rw [SyncConfig.workerCount]
  split_ifs <;> omega

theorem Goroutines.workers (h : Goroutines e syncCfg a env pool pair) : 1 ≤ pool.workers := by
  cases h <;> exact syncCfg.one_le_workerCount

/-- When the goroutines are done, the run of `ExecuteSync` ends with their counts. -/
theorem Goroutines.executeSync (h : Goroutines e syncCfg a env pool pair) {w : World}
    {s : Pool.State Call Call.Ans Env World n} (hs : Pool.Reaches pool w s)
    (hr : s.returned = true) : ExecuteSync e syncCfg a env w (.ok ())
      (recordSyncRun a syncCfg.id (runStatus ⟨s.success, s.failure⟩) ⟨s.success, s.failure⟩ ""
        s.shared) := by
  cases h with
  | unidirectional hsource hlist hrelist htype =>
    exact .unidirectional hsource hlist htype (.returned hrelist hs hr)
  | bidirectional hsource hlist hrelist htype hfirst htarget =>
    exact .bidirectional hsource hlist htype hfirst htarget (.returned hrelist hs hr)

/-- A run that starts no goroutines touches neither the vaults nor the records. -/
def Idle (w w' : World) : Prop := w'.vaults = w.vaults ∧ w'.syncObjects = w.syncObjects

theorem recordSyncRun_idle (a : RunAnswers) (syncID status : String) (result : SyncResult)
    (errorMessage : String) (w : World) : Idle w (recordSyncRun a syncID status result errorMessage w) := by
  refine ⟨recordSyncRun_vaults .., ?_⟩
  simp only [recordSyncRun, handle, Answer.commit]
  cases (Stream'.const a.record).head.fault <;> rfl

/-- A run of `ExecuteSync` starts no goroutines, or it ends when they are done. -/
theorem ExecuteSync.goroutines {w w' : World} {r : Except GoError Unit}
    (h : ExecuteSync e syncCfg a env w r w') : Idle w w' ∨
      ∃ (n : ℕ) (pool : Pool.Setup Call Call.Ans Env World n) (pair : Fin n → String × String)
        (s : Pool.State Call Call.Ans Env World n), Goroutines e syncCfg a env pool pair ∧
        Pool.Reaches pool w s ∧ s.returned = true ∧
        w' = recordSyncRun a syncCfg.id (runStatus ⟨s.success, s.failure⟩)
          ⟨s.success, s.failure⟩ "" s.shared := by
  cases h with
  | noSource | noTarget => exact .inl ⟨rfl, rfl⟩
  | unlisted | otherType => exact .inl (recordSyncRun_idle ..)
  | unidirectional hsource hlist htype hrun =>
    cases hrun with
    | unlisted => exact .inl (recordSyncRun_idle ..)
    | returned hrelist hs hr =>
      exact .inr ⟨_, _, _, _, .unidirectional hsource hlist hrelist htype, hs, hr, rfl⟩
  | bidirectional hsource hlist htype hfirst htarget hrun =>
    cases hrun with
    | unlisted => exact .inl (recordSyncRun_idle ..)
    | returned hrelist hs hr =>
      exact .inr ⟨_, _, _, _, .bidirectional hsource hlist hrelist htype hfirst htarget, hs, hr, rfl⟩

end Goroutines

/-! ### Writes to the sync database -/

/-- The record a call writes, where it takes effect: the UPDATE found the row, or the INSERT found
    none. -/
def Call.saved (op : Call) (a : Answer) (w : World) : Option SyncObject :=
  match op with
  | .updateSyncObject obj _ =>
    if a.Works ∧ w.syncObjects.lookup obj.key ≠ none then some obj else none
  | .insertSyncObject obj _ =>
    if a.Works ∧ w.syncObjects.lookup obj.key = none then some obj else none
  | _ => none

theorem saved_update {o o' : SyncObject} {t : ℤ} {a : Answer} {w : World}
    (h : (Call.updateSyncObject o t).saved a w = some o') : o' = o := by
  simp only [Call.saved] at h
  split_ifs at h
  exact (Option.some.inj h).symm

theorem saved_insert {o o' : SyncObject} {t : ℤ} {a : Answer} {w : World}
    (h : (Call.insertSyncObject o t).saved a w = some o') : o' = o := by
  simp only [Call.saved] at h
  split_ifs at h
  exact (Option.some.inj h).symm

/-- A call that writes no record leaves the rows as they are. -/
theorem lookup_of_not_saved {op : Call} {env : Env} {w : World} (h : op.saved env.head w = none)
    (k : SyncKey) : (handle op (env, w)).2.2.syncObjects.lookup k = w.syncObjects.lookup k := by
  cases op with
  | listSecrets | getSecret | sleep | now | rowsAffected | selectSyncObject => rfl
  | setSecret vault name value | insertSyncRun run =>
    simp only [handle, Answer.commit]
    cases env.head.fault <;> rfl
  | updateSyncObject obj t =>
    simp only [handle]
    by_cases hw : env.head.Works
    · have hl : w.syncObjects.lookup obj.key = none := by
        by_contra hl
        simp [Call.saved, hw, hl] at h
      rw [Answer.commit_of_works hw, World.update, SyncObjectTable.update_of_absent hl]
    · obtain ⟨err, herr⟩ := Answer.commit_of_fault hw
        (.ok (w.update obj t).1, (w.update obj t).2) w
      rw [herr]
  | insertSyncObject obj t =>
    simp only [handle]
    by_cases hw : env.head.Works
    · have hl : w.syncObjects.lookup obj.key ≠ none := by
        intro hl
        simp [Call.saved, hw, hl] at h
      rw [Answer.commit_of_works hw, World.insert, dif_neg hl]
    · obtain ⟨err, herr⟩ := Answer.commit_of_fault hw (w.insert obj t env.head.clock) w
      rw [herr]

/-- A call that writes the record `o` leaves a row with its fields, and no other row changes. -/
theorem lookup_of_saved {op : Call} {env : Env} {w : World} {o : SyncObject}
    (h : op.saved env.head w = some o) :
    (∃ r, (handle op (env, w)).2.2.syncObjects.lookup o.key = some r ∧ r.Records o) ∧
      ∀ k, k ≠ o.key →
        (handle op (env, w)).2.2.syncObjects.lookup k = w.syncObjects.lookup k := by
  cases op with
  | listSecrets | getSecret | setSecret | sleep | now | rowsAffected | selectSyncObject
  | insertSyncRun => simp [Call.saved] at h
  | updateSyncObject obj t =>
    simp only [Call.saved] at h
    split_ifs at h with hc
    obtain rfl := Option.some.inj h
    obtain ⟨r, hr⟩ := Option.ne_none_iff_exists'.mp hc.2
    simp only [handle]
    rw [Answer.commit_of_works hc.1]
    simp only [World.update, SyncObjectTable.lookup_update]
    refine ⟨⟨SyncObjectTable.assign obj t r, by simp [hr], ?_⟩, fun k hk => by simp [hk]⟩
    exact records_assign (SyncObjectTable.lookup_key hr) t
  | insertSyncObject obj t =>
    simp only [Call.saved] at h
    split_ifs at h with hc
    obtain rfl := Option.some.inj h
    simp only [handle]
    rw [Answer.commit_of_works hc.1]
    simp only [World.insert, dif_pos hc.2, SyncObjectTable.lookup_insert]
    exact ⟨⟨_, if_pos trivial, records_newRow ..⟩, fun k hk => if_neg hk⟩

end VaultsSyncer
