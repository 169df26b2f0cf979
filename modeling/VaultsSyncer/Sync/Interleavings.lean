import VaultsSyncer.Sync.Concurrent
import VaultsSyncer.Sync.History
import VaultsSyncer.Sync.Patterns
import Mathlib.Data.List.ProdSigma

/-! What a run of the two concurrent syncs ends in, whatever the scheduler does and whatever fails.
    The goroutines of a unidirectional sync share the source, which they only read, and write
    different entries of the targets; those of a bidirectional sync have one secret each. -/

namespace VaultsSyncer

open GoStd Schemes Schemes.Prog

theorem syncKey_inj {syncCfg : SyncConfig} {t t' n n' : String}
    (h : syncKey syncCfg t n = syncKey syncCfg t' n') : t = t' ∧ n = n' := by
  simpa [syncKey] using h

/-! ### One direction -/

/-- A goroutine reads its secret in the source, writes it in its target and keeps its record. -/
def unidirectionalFootprint (syncCfg : SyncConfig) (job : String × String) : Footprint where
  reads := fun v n => v = syncCfg.source ∧ n = job.1
  writes := fun v n => v = job.2 ∧ n = job.1
  keys := fun k => k = syncKey syncCfg job.2 job.1

theorem unidirectionalJobs_eq (syncCfg : SyncConfig) (secrets : List String) :
    unidirectionalJobs syncCfg secrets =
      (filterSecrets secrets syncCfg.filter).product syncCfg.targets := rfl

theorem unidirectional_confined (e : Engine) {syncCfg : SyncConfig} (hnd : syncCfg.targets.Nodup)
    (hsrc : syncCfg.source ∉ syncCfg.targets) {secrets : List String} (hsec : secrets.Nodup) :
    Confined (unidirectionalJobs syncCfg secrets)
      (fun job => syncSecretUnidirectional e syncCfg job.2 job.1 syncCfg.source)
      (unidirectionalFootprint syncCfg) where
  nodup := (hsec.sublist (filterSecrets_sublist _ _)).product hnd
  within := fun _ _ => within_syncSecretUnidirectional ⟨rfl, rfl⟩ ⟨rfl, rfl⟩ rfl
  alike := fun _ _ => alike_syncSecretUnidirectional ..
  cells := by
    rintro ⟨n, t⟩ _ ⟨n', t'⟩ hj' hne v m (⟨hv, hm⟩ | ⟨hv, hm⟩) ⟨hv', hm'⟩
    · -- the source is no target
      rw [unidirectionalJobs_eq, List.pair_mem_product] at hj'
      exact hsrc (hv ▸ hv' ▸ hj'.2)
    · exact hne (Prod.ext (hm.symm.trans hm') (hv.symm.trans hv'))
  keys := by
    rintro ⟨n, t⟩ _ ⟨n', t'⟩ _ hne k hk hk'
    obtain ⟨ht, hn⟩ := syncKey_inj (hk.symm.trans hk')
    exact hne (Prod.ext hn ht)

/-- Every secret and target pair is counted once. Where it was counted as a success the target holds
    the transformed source value, where it was counted as a failure the target's value is the one
    before the run, and nothing else changes in any vault. -/
theorem unidirectional_run_correct (e : Engine) {syncCfg : SyncConfig}
    (hnd : syncCfg.targets.Nodup) (hsrc : syncCfg.source ∉ syncCfg.targets) (workerCount : ℕ)
    {listing : Answer} (hlist : listing.Works) (hsec : listing.names.Nodup)
    (env : String × String → Env) {w₀ w : World} {result : SyncResult}
    (hrun : executeSyncUnidirectionalConcurrent e syncCfg syncCfg.source workerCount listing env w₀
      result w) :
    ∃ counted : String × String → Bool,
      result.success = (unidirectionalJobs syncCfg listing.names).countP counted ∧
      result.failure = (unidirectionalJobs syncCfg listing.names).countP (fun j => !counted j) ∧
      result.success + result.failure =
        (filterSecrets listing.names syncCfg.filter).length * syncCfg.targets.length ∧
      (∀ n ∈ filterSecrets listing.names syncCfg.filter, ∀ t ∈ syncCfg.targets,
        (counted (n, t) = true → ∃ s x, w₀.vaults syncCfg.source n = some s ∧
          applyTransforms s syncCfg.transforms = .ok x ∧ w.vaults t n = some x) ∧
        (counted (n, t) = false → w.vaults t n = w₀.vaults t n)) ∧
      (∀ v n, ¬(n ∈ filterSecrets listing.names syncCfg.filter ∧ v ∈ syncCfg.targets) →
        w.vaults v n = w₀.vaults v n) := by
  have hconf := unidirectional_confined e hnd hsrc hsec
  cases hrun with
  | unlisted h => exact absurd hlist h
  | returned _ hs hr =>
    obtain ⟨hsucc, hfail, htotal⟩ := hconf.counts RowView.content hs hr
    have hlen : (unidirectionalJobs syncCfg listing.names).length =
        (filterSecrets listing.names syncCfg.filter).length * syncCfg.targets.length :=
      List.length_product _ _
    refine ⟨_, hsucc, hfail, htotal.trans hlen, ?_, ?_⟩
    · intro n hn t ht
      have hmem : (n, t) ∈ unidirectionalJobs syncCfg listing.names :=
        List.pair_mem_product.mpr ⟨hn, ht⟩
      have hcell := (hconf.as_alone RowView.content hs hr hmem).cells t n (.inr ⟨rfl, rfl⟩)
      have hone := run_syncSecretUnidirectional e syncCfg t n syncCfg.source (env (n, t)) w₀
      rw [hcell]
      exact ⟨hone.delivers, fun hfalse => by rw [hone.vaults_of_error hfalse]⟩
    · intro v n hno
      refine (hconf.invariant hs (I := fun u => u.vaults v n = w₀.vaults v n) ?_ rfl env).1
      rintro ⟨n', t'⟩ hj op env' u hop hu
      refine (frame_cell hop ?_ env' u).trans hu
      rintro ⟨rfl, rfl⟩
      exact hno (List.pair_mem_product.mp hj)

/-- Vault `a` is copied to vault `b`, two secrets at a time. -/
def copySync : SyncConfig := { pairSync with syncType := "unidirectional", concurrentWorkers := 2 }

/-- The secrets `k` and `m` in `a`. -/
def copyWorld : World where
  vaults := fun v n => if v = "a" then [("k", utf8 "v"), ("m", utf8 "w")].lookup n else none

/-- The secret is read, and then no attempt to write it works. -/
def writesDown : Env :=
  Stream'.cons {} (List.replicate copySync.attempts { fault := some (.new "timeout") } ++ₛ noFaults)

/-- `m` cannot be written. -/
def copyEnv (job : String × String) : Env := if job.1 = "m" then writesDown else noFaults

def copyPool : Pool.Setup Call Call.Ans Env World (unidirectionalJobs copySync ["k", "m"]).length :=
  workerPool (unidirectionalJobs copySync ["k", "m"])
    (fun job => syncSecretUnidirectional pairEngine copySync job.2 job.1 "a") 2 copyEnv

/-- The goroutines of `k` and of `m`. -/
def copyK : Fin (unidirectionalJobs copySync ["k", "m"]).length := ⟨0, by decide +kernel⟩

def copyM : Fin (unidirectionalJobs copySync ["k", "m"]).length := ⟨1, by decide +kernel⟩

/-- The two take turns, until `m` has failed and `k` is about to write its record. -/
def copyTurns : List (Pool.Action (unidirectionalJobs copySync ["k", "m"]).length) :=
  [.launch, .launch, .spawnCloser, .acquire copyK, .acquire copyM] ++
    (List.replicate 6 [.exec copyM, .exec copyK]).flatten ++
    List.replicate 7 (.exec copyM) ++ [.send copyM, .release copyM, .done copyM]

def copySchedule : List (Pool.Action (unidirectionalJobs copySync ["k", "m"]).length) :=
  copyTurns ++ [.exec copyK, .send copyK, .release copyK, .done copyK, .close, .receive, .receive, .finish]

/-- Two workers copy a secret each, and one of the two cannot be written. -/
theorem unidirectional_run_correct_pair : ∃ w counted,
    executeSyncUnidirectionalConcurrent pairEngine copySync "a" 2 { names := ["k", "m"] } copyEnv
      copyWorld ⟨1, 1⟩ w ∧
    counted ("k", "b") = true ∧ w.vaults "b" "k" = some (utf8 "v") ∧
    counted ("m", "b") = false ∧ w.vaults "b" "m" = none ∧
    (unidirectionalJobs copySync ["k", "m"]).countP counted = 1 := by
  obtain ⟨s, hs, hend⟩ := Pool.exists_of_follow copyPool copyWorld copySchedule
    (fun s => (s.returned, [s.success, s.failure], ["k", "m"].map (s.shared.vaults "b")))
    (b := (true, [1, 1], [some (utf8 "v"), none])) (by decide +kernel)
  simp only [List.map_cons, List.map_nil, Prod.mk.injEq, List.cons.injEq, and_true] at hend
  obtain ⟨hr, ⟨hsuccess, hfailure⟩, hk, hm⟩ := hend
  have hrun : executeSyncUnidirectionalConcurrent pairEngine copySync "a" 2 { names := ["k", "m"] }
      copyEnv copyWorld ⟨s.success, s.failure⟩ s.shared := .returned rfl hs hr
  rw [hsuccess, hfailure] at hrun
  obtain ⟨counted, hcount, -, -, hpairs, -⟩ :=
    unidirectional_run_correct pairEngine (by decide) (by decide) 2 rfl (by decide) copyEnv hrun
  refine ⟨_, counted, hrun, ?_, hk, ?_, hm, hcount.symm⟩
  · by_contra hlost
    have hsame := (hpairs "k" (by decide) "b" (by decide)).2 (Bool.eq_false_of_not_eq_true hlost)
    exact absurd (hk.symm.trans hsame) (by decide)
  · by_contra hkept
    obtain ⟨v, x, -, -, hx⟩ :=
      (hpairs "m" (by decide) "b" (by decide)).1 (Bool.eq_true_of_not_eq_false hkept)
    exact absurd (hm.symm.trans hx) (by simp)

/-! ### Both directions -/

/-- A goroutine reads and writes its secret on both sides and keeps its record. -/
def bidirectionalFootprint (syncCfg : SyncConfig) (targetID secretName : String) : Footprint where
  reads := fun v n => (v = syncCfg.source ∨ v = targetID) ∧ n = secretName
  writes := fun v n => (v = syncCfg.source ∨ v = targetID) ∧ n = secretName
  keys := fun k => k = syncKey syncCfg targetID secretName

theorem bidirectional_confined (e : Engine) (syncCfg : SyncConfig) (targetID : String)
    {secrets : List String} (hsec : secrets.Nodup) :
    Confined (filterSecrets secrets syncCfg.filter)
      (fun secretName =>
        syncSecretBidirectional e syncCfg targetID secretName syncCfg.source targetID)
      (bidirectionalFootprint syncCfg targetID) where
  nodup := hsec.sublist (filterSecrets_sublist _ _)
  within := fun _ _ => within_syncSecretBidirectional ⟨.inl rfl, rfl⟩ ⟨.inr rfl, rfl⟩
    ⟨.inl rfl, rfl⟩ ⟨.inr rfl, rfl⟩ ⟨.inr rfl, rfl⟩ rfl
  alike := fun _ _ => alike_syncSecretBidirectional ..
  cells := by
    rintro n _ n' _ hne v m (hF | hF) hG
    · exact hne (hF.2.symm.trans hG.2)
    · exact hne (hF.2.symm.trans hG.2)
  keys := by
    rintro n _ n' _ hne k hk hk'
    exact hne (syncKey_inj (hk.symm.trans hk')).2

/-- A call keeps the ids of the rows that are there. -/
theorem handle_keeps_id (op : Call) (env : Env) (w : World) {k : SyncKey} {r : SyncObjectRow}
    (h : w.syncObjects.lookup k = some r) :
    ∃ r', (handle op (env, w)).2.2.syncObjects.lookup k = some r' ∧ r'.id = r.id := by
  rcases handle_cases op env w with hw | ⟨vault, name, value, rfl, hw⟩ | ⟨obj, t, rfl, hw⟩ |
    ⟨obj, t, rfl, hl, hw⟩ | ⟨run, rfl, hw⟩
  · exact ⟨r, by rw [hw, h], rfl⟩
  · exact ⟨r, by rw [hw, World.setVault_syncObjects, h], rfl⟩
  · simp only [hw, World.update, SyncObjectTable.lookup_update]
    split_ifs with hk
    · subst hk
      exact ⟨SyncObjectTable.assign obj t r, by rw [h, Option.map_some], rfl⟩
    · exact ⟨r, h, rfl⟩
  · have hk : k ≠ obj.key := by
      rintro rfl
      rw [hl] at h
      cases h
    exact ⟨r, by simp only [hw, SyncObjectTable.lookup_insert, hk, if_false, h], rfl⟩
  · exact ⟨r, by rw [hw, h], rfl⟩

/-- Whatever the schedule, the vaults and the records end as when the filtered names are handled one
    after another in list order, whatever the clocks show there: the records agree in all but their
    timestamps and the ids of rows that were not there before. Other names are left alone. -/
theorem bidirectional_run_eq_sequential (e : Engine) (syncCfg : SyncConfig) (targetID : String)
    (workerCount : ℕ) {listing : Answer} (hlist : listing.Works) (hsec : listing.names.Nodup)
    {env env' : String → Env} (henv : ∀ n, SameFaults (env n) (env' n)) {w₀ w : World}
    {result : SyncResult}
    (hrun : executeSyncBidirectionalConcurrent e syncCfg targetID syncCfg.source targetID workerCount
      listing env w₀ result w) :
    let u := oneByOne (filterSecrets listing.names syncCfg.filter)
      (fun n => syncSecretBidirectional e syncCfg targetID n syncCfg.source targetID) env' w₀
    w.vaults = u.vaults ∧
    (∀ k, (w.syncObjects.lookup k).map SyncObjectRow.content =
      (u.syncObjects.lookup k).map SyncObjectRow.content) ∧
    (∀ k r₀, w₀.syncObjects.lookup k = some r₀ →
      (∃ r, w.syncObjects.lookup k = some r ∧ r.id = r₀.id) ∧
      ∃ r, u.syncObjects.lookup k = some r ∧ r.id = r₀.id) ∧
    (∀ v n, n ∉ filterSecrets listing.names syncCfg.filter → w.vaults v n = w₀.vaults v n) ∧
    (∀ k, k.secretName ∉ filterSecrets listing.names syncCfg.filter →
      w.syncObjects.lookup k = w₀.syncObjects.lookup k) := by
  intro u
  have hconf := bidirectional_confined e syncCfg targetID hsec
  cases hrun with
  | unlisted h => exact absurd hlist h
  | @returned s _ hs hr =>
    have hagree := fun n (hn : n ∈ filterSecrets listing.names syncCfg.filter) =>
      hconf.as_sequential RowView.content hs hr henv hn
    -- what belongs to no job is kept by every call
    have hcell : ∀ v n, ¬(n ∈ filterSecrets listing.names syncCfg.filter ∧
        (v = syncCfg.source ∨ v = targetID)) →
        s.shared.vaults v n = w₀.vaults v n ∧ u.vaults v n = w₀.vaults v n := by
      intro v n hno
      refine hconf.invariant hs (I := fun x => x.vaults v n = w₀.vaults v n) ?_ rfl env'
      intro j hj op env'' x hop hx
      refine (frame_cell hop ?_ env'' x).trans hx
      rintro ⟨hv, rfl⟩
      exact hno ⟨hj, hv⟩
    have hrow : ∀ k, (∀ n ∈ filterSecrets listing.names syncCfg.filter,
        k ≠ syncKey syncCfg targetID n) →
        s.shared.syncObjects.lookup k = w₀.syncObjects.lookup k ∧
          u.syncObjects.lookup k = w₀.syncObjects.lookup k := by
      intro k hno
      refine hconf.invariant hs
        (I := fun x => x.syncObjects.lookup k = w₀.syncObjects.lookup k) ?_ rfl env'
      intro j hj op env'' x hop hx
      exact (frame_row hop (hno j hj) env'' x).trans hx
    refine ⟨?_, ?_, ?_, ?_, ?_⟩
    · funext v n
      by_cases hin : n ∈ filterSecrets listing.names syncCfg.filter ∧
        (v = syncCfg.source ∨ v = targetID)
      · exact (hagree n hin.1).cells v n (.inl ⟨hin.2, rfl⟩)
      · rw [(hcell v n hin).1, (hcell v n hin).2]
    · intro k
      by_cases hin : ∃ n ∈ filterSecrets listing.names syncCfg.filter,
        k = syncKey syncCfg targetID n
      · obtain ⟨n, hn, hk⟩ := hin
        exact (hagree n hn).rows k hk
      · obtain ⟨hs', hu⟩ := hrow k fun n hn hk => hin ⟨n, hn, hk⟩
        rw [hs', hu]
    · intro k r₀ hr₀
      refine hconf.invariant hs (I := fun x => ∃ r, x.syncObjects.lookup k = some r ∧ r.id = r₀.id)
        ?_ ⟨r₀, hr₀, rfl⟩ env'
      rintro j _ op env'' x _ ⟨r, hr, hid⟩
      obtain ⟨r', hr', hid'⟩ := handle_keeps_id op env'' x hr
      exact ⟨r', hr', hid'.trans hid⟩
    · intro v n hn
      exact (hcell v n fun hin => hn hin.1).1
    · intro k hk
      refine (hrow k fun n hn hkey => hk ?_).1
      rw [hkey]
      exact hn

/-- Two new secrets, with the same value on both sides. -/
def twoSecrets : World where
  vaults := fun v n => if (v = "a" ∨ v = "b") ∧ (n = "x" ∨ n = "y") then some (utf8 "v") else none

/-- The goroutine of `y` runs before that of `x`. -/
theorem y_before_x : ∃ s, Pool.Reaches (workerPool (filterSecrets ["x", "y"] pairSync.filter)
      (fun n => syncSecretBidirectional pairEngine pairSync "b" n "a" "b") 2 fun _ => noFaults)
      twoSecrets s ∧
    (s.returned, (s.shared.syncObjects.lookup (syncKey pairSync "b" "x")).map (·.id)) =
      (true, some 2) :=
  Pool.exists_of_follow _ twoSecrets ([.launch, .launch, .spawnCloser] ++
    Pool.serve ⟨1, by decide +kernel⟩ 7 ++ Pool.serve ⟨0, by decide +kernel⟩ 7 ++
    [.close, .receive, .receive, .finish])
    (fun s => (s.returned, (s.shared.syncObjects.lookup (syncKey pairSync "b" "x")).map (·.id)))
    (by decide +kernel)

theorem bidirectional_run_eq_sequential_pair : ∃ result w,
    executeSyncBidirectionalConcurrent pairEngine pairSync "b" "a" "b" 2 { names := ["x", "y"] }
      (fun _ => noFaults) twoSecrets result w ∧
    w.vaults = (oneByOne ["x", "y"]
      (fun n => syncSecretBidirectional pairEngine pairSync "b" n "a" "b") (fun _ => noFaults)
      twoSecrets).vaults := by
  obtain ⟨s, hs, hr⟩ := y_before_x
  have hrun : executeSyncBidirectionalConcurrent pairEngine pairSync "b" "a" "b" 2
      { names := ["x", "y"] } (fun _ => noFaults) twoSecrets ⟨s.success, s.failure⟩ s.shared :=
    .returned rfl hs (congrArg Prod.fst hr)
  have hsame : ∀ n : String, SameFaults noFaults noFaults := fun _ _ => rfl
  exact ⟨_, _, hrun,
    (bidirectional_run_eq_sequential pairEngine pairSync "b" 2 rfl (by decide) hsame hrun).1⟩

/-- Both rows are new: when the goroutine of `y` comes first, `x` gets another row id than when the
    names are handled in list order. -/
theorem row_ids_depend_on_schedule : ∃ result w,
    executeSyncBidirectionalConcurrent pairEngine pairSync "b" "a" "b" 2 { names := ["x", "y"] }
      (fun _ => noFaults) twoSecrets result w ∧
    (w.syncObjects.lookup (syncKey pairSync "b" "x")).map (·.id) ≠
      ((oneByOne ["x", "y"] (fun n => syncSecretBidirectional pairEngine pairSync "b" n "a" "b")
        (fun _ => noFaults) twoSecrets).syncObjects.lookup (syncKey pairSync "b" "x")).map
          (·.id) := by
  obtain ⟨s, hs, hr⟩ := y_before_x
  refine ⟨_, _, .returned rfl hs (congrArg Prod.fst hr), ?_⟩
  have hid := congrArg Prod.snd hr
  simp only at hid
  rw [hid]
  decide +kernel

end VaultsSyncer
