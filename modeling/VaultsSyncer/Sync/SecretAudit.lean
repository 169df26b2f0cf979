import VaultsSyncer.Sync.Contracts

/-! What the sync database says about a run, secret by secret. An attempt that gets as far as its write
    leaves a record of how it went; one that returns earlier leaves the record of the run before it,
    so `GetSyncStatus` may go on reporting success (`audit_agrees`, `stale_success`). -/

namespace VaultsSyncer

open GoStd Schemes Schemes.Prog

/-! ### The status of a sync -/

/-- Retrieves all sync objects for a sync, the latest first. -/
def getSyncObjectsBySync (w : World) (syncID : String) : List SyncObject :=
  ((w.syncObjects.rows.filter fun r => r.syncID = syncID).mergeSort
    fun r r' => r'.updatedAt ≤ r.updatedAt).map (·.toSyncObject)

/-- Retrieves sync runs for a sync, the latest first. -/
def getSyncRuns (w : World) (syncID : String) (limit : ℤ) : List SyncRun :=
  ((w.syncsRun.filter fun run => run.syncID = syncID).mergeSort
    fun run run' => run'.createdAt ≤ run.createdAt).take (if limit ≤ 0 then 100 else limit.toNat)

/-- What `GetSyncStatus` returns. -/
structure SyncStatus where
  syncID : String
  lastRun : Option SyncRun
  totalObjects : ℕ
  syncedObjects : ℕ
  failedObjects : ℕ
  recentRuns : List SyncRun
  nextRun : Option ℤ

/-- The object counts as synced. -/
def SyncObject.Synced (o : SyncObject) : Prop :=
  o.lastSyncStatus = "success" ∨ o.lastSyncStatus = "in_sync"

instance (o : SyncObject) : Decidable o.Synced := inferInstanceAs (Decidable (_ ∨ _))

/-- Returns the status of a sync; `runs` and `objects` answer its two queries. -/
def getSyncStatus (runs objects : Answer) (nextRun : Option ℤ) (syncID : String) (w : World) :
    Except GoError SyncStatus := do
  let runs ← runs.reply (.ok (getSyncRuns w syncID 10))
  let syncObjects ← objects.reply (.ok (getSyncObjectsBySync w syncID))
  let successCount := syncObjects.countP fun obj => obj.Synced
  return { syncID := syncID, lastRun := runs.head?, totalObjects := syncObjects.length
           syncedObjects := successCount, failedObjects := syncObjects.length - successCount
           recentRuns := runs, nextRun := nextRun }

/-- The objects that `GetSyncStatus` counts as failed. -/
def reportedFailed (w : World) (syncID : String) : List SyncObject :=
  (getSyncObjectsBySync w syncID).filter fun obj => ¬obj.Synced

theorem failedObjects_eq {runs objects : Answer} {nextRun : Option ℤ} {syncID : String} {w : World}
    {status : SyncStatus} (h : getSyncStatus runs objects nextRun syncID w = .ok status) :
    status.failedObjects = (reportedFailed w syncID).length := by
  unfold getSyncStatus at h
  generalize runs.reply (.ok (getSyncRuns w syncID 10)) = r at h
  generalize hobjects : objects.reply (.ok (getSyncObjectsBySync w syncID)) = r' at h
  rcases r with err | l
  · cases h
  rcases r' with err | l'
  · cases h
  have hl : l' = getSyncObjectsBySync w syncID := by
    unfold Answer.reply at hobjects
    split at hobjects
    · cases hobjects
    · exact (Except.ok.inj hobjects).symm
  obtain rfl := Except.ok.inj h
  have hsplit := List.length_eq_countP_add_countP (fun obj : SyncObject => decide obj.Synced) (l := l')
  have hfailed : (reportedFailed w syncID).length = l'.countP fun obj => ¬(decide obj.Synced = true) := by
    rw [reportedFailed, ← List.countP_eq_length_filter, hl]
    simp
  simp only [hfailed]
  omega

/-! ### Agreement -/

/-- What a record has to say of an attempt that went well, or not. -/
def SyncObject.Tells (o : SyncObject) (ok : Bool) : Prop :=
  if ok then o.Synced else o.lastSyncStatus = "failed"

/-- The world has a record of the attempt which tells how it went. -/
def Audited (syncCfg : SyncConfig) (job : String × String) (ok : Bool) (w : World) : Prop :=
  ∃ r, w.syncObjects.lookup (syncKey syncCfg job.2 job.1) = some r ∧ r.Tells ok

/-- Each attempt has a record that tells how it went, and as many attempts failed as are reported. -/
structure AuditAgrees (syncCfg : SyncConfig) {n : ℕ} (pair : Fin n → String × String)
    (s : Pool.State Call Call.Ans Env World n) (w : World) : Prop where
  rows : ∀ i, ∃ ok, s.phase i = .finished ok ∧ Audited syncCfg (pair i) ok w
  count : ∀ runs objects nextRun status, getSyncStatus runs objects nextRun syncCfg.id w = .ok status →
    status.failedObjects = (reportedFailed w syncCfg.id).length ∧
      s.failure = (reportedFailed w syncCfg.id).countP fun o =>
        ∃ i, syncKey syncCfg (pair i).2 (pair i).1 = o.key

/-- The attempt gets as far as its write, or finds both sides in sync. -/
def Served (e : Engine) (syncCfg : SyncConfig) (job : String × String) (env : Env) (w : World) :
    Prop :=
  if syncCfg.syncType = "bidirectional" then
    ∃ v, (env.get 0).Works ∧ w.vaults syncCfg.source job.1 = some v ∧
      (¬((env.get 1).Works ∧ ∃ t, w.vaults job.2 job.1 = some t) →
        ∃ v x, Ready e syncCfg job.2 job.1 syncCfg.source (env.drop 2) w v x) ∧
      ∀ t, BothRead job.1 syncCfg.source job.2 env w v t →
        hashString v = hashString t ∨ (env.get 2).Works
  else ∃ v x, Ready e syncCfg job.2 job.1 syncCfg.source env w v x

/-- The record of the attempt says already that it failed. -/
def Stale (syncCfg : SyncConfig) (job : String × String) (w : World) : Prop :=
  Audited syncCfg job false w

section Attempt

variable (e : Engine) (syncCfg : SyncConfig) (job : String × String)

/-- Nobody else touches the record of an attempt, nor its secret in a bidirectional sync. -/
def auditContract : Contract Call Env World where
  rely := fun s s' => s'.syncObjects.lookup (syncKey syncCfg job.2 job.1) =
      s.syncObjects.lookup (syncKey syncCfg job.2 job.1) ∧
    (syncCfg.syncType = "bidirectional" → ∀ v, v = syncCfg.source ∨ v = job.2 →
      s'.vaults v job.1 = s.vaults v job.1)
  given := fun op e _ => op.Upserts → e.head.Works
  call := fun _ _ _ => True
  refl := fun _ => ⟨rfl, fun _ _ _ => rfl⟩
  trans := fun h h' =>
    ⟨h'.1.trans h.1, fun hb v hv => (h'.2 hb v hv).trans (h.2 hb v hv)⟩

variable {e syncCfg job} {env : Env} {s s' : World}

theorem Audited.moved {ok : Bool} (h : Audited syncCfg job ok s)
    (hs : (auditContract syncCfg job).rely s s') : Audited syncCfg job ok s' := by
  obtain ⟨r, hr, htells⟩ := h
  exact ⟨r, hs.1.trans hr, htells⟩

/-- What an attempt answers for. -/
abbrev Told (syncCfg : SyncConfig) (job : String × String) (r : Except GoError Unit) (_ : Env)
    (s : World) : Prop := Audited syncCfg job r.isOk s

theorem told_of_stale {err : GoError} (h : Stale syncCfg job s) :
    (pure (.error err) : Sync (Except GoError Unit)).Keeps handle (auditContract syncCfg job)
      (Told syncCfg job) env s :=
  keeps_ret fun _ hs' => h.moved hs'

/-- A record under the key of the attempt that tells what is returned. -/
theorem told_of_record {o : ℤ → SyncObject} {res : Except GoError Unit}
    (hkey : ∀ t, (o t).key = syncKey syncCfg job.2 job.1) (htells : ∀ t, (o t).Tells res.isOk) :
    (record o res).Keeps handle (auditContract syncCfg job) (Told syncCfg job) env s := by
  refine keeps_record (fun _ _ _ _ => trivial) (fun s' _ => ?_) fun _ _ _ h hs => h.moved hs
  refine (keeps_upsert_saved (T := auditContract syncCfg job) (fun _ _ _ _ => trivial)
    (fun u u' hu => ?_) (fun _ _ _ hup hgiven => hgiven hup) (fun _ _ _ => trivial)
    (fun _ _ _ => trivial) _ s').mono ?_
  · rw [hkey]
    exact hu.1
  · rintro _ _ u ⟨r, hr, hrec⟩
    refine ⟨r, hkey _ ▸ hr, ?_⟩
    have hst : r.lastSyncStatus = (o env.head.clock).lastSyncStatus := congrArg Note.status hrec.note
    have h := htells env.head.clock
    unfold SyncObject.Tells SyncObject.Synced at h ⊢
    rwa [hst]

theorem told_of_copy {policy : RetryPolicy} {vault name : String} {value : Bytes}
    {failed : GoError → ℤ → SyncObject} {done : ℤ → SyncObject}
    (hkey : ∀ t, (done t).key = syncKey syncCfg job.2 job.1 ∧
      ∀ err, (failed err t).key = syncKey syncCfg job.2 job.1)
    (hdone : ∀ t, (done t).lastSyncStatus = "success")
    (hfailed : ∀ err t, (failed err t).lastSyncStatus = "failed") :
    (copyAndRecord policy vault name value failed done).Keeps handle (auditContract syncCfg job)
      (Told syncCfg job) env s :=
  keeps_copyAndRecord (fun _ _ _ _ => trivial) (fun _ _ _ _ => trivial)
    (fun _ _ _ _ _ _ => told_of_record (fun t => (hkey t).1) fun t => .inl (hdone t))
    fun err _ _ _ => told_of_record (fun t => (hkey t).2 err) fun t => hfailed err t

theorem told_unidirectional (h : Stale syncCfg job s ∨
      ∃ v x, Ready e syncCfg job.2 job.1 syncCfg.source env s v x) :
    (syncSecretUnidirectional e syncCfg job.2 job.1 syncCfg.source).KeepsNow handle
      (auditContract syncCfg job) (Told syncCfg job) env s := by
  refine keepsNow_unidirectional (fun _ _ _ _ => trivial) (fun hno err e' => ?_) fun v x _ => ?_
  · rcases h with h | ⟨v, x, hready⟩
    · exact told_of_stale h
    · exact absurd hready (hno v x)
  · exact told_of_copy (fun _ => ⟨rfl, fun _ => rfl⟩) (fun _ => rfl) fun _ _ => rfl

theorem told_bidirectional (hb : syncCfg.syncType = "bidirectional")
    (h : Stale syncCfg job s ∨ Served e syncCfg job env s) :
    (syncSecretBidirectional e syncCfg job.2 job.1 syncCfg.source job.2).KeepsNow handle
      (auditContract syncCfg job) (Told syncCfg job) env s := by
  rw [Served, if_pos hb] at h
  have hcell : ∀ {u u' : World}, (auditContract syncCfg job).rely u u' →
      ∀ c, c = syncCfg.source ∨ c = job.2 → u'.vaults c job.1 = u.vaults c job.1 := fun hu => hu.2 hb
  refine keepsNow_bidirectional (fun _ _ _ _ => trivial) ?_ ?_ ?_ ?_ ?_
  · intro hno err e'
    rcases h with h | ⟨v, hw, hv, -⟩
    · exact told_of_stale h
    · exact absurd ⟨hw, v, hv⟩ hno
  · intro v s' hw hv hs' hno
    refine keeps_iff.mpr fun s'' hs'' => told_unidirectional ?_
    rcases h with h | ⟨_, -, -, hready, -⟩
    · exact .inl ((h.moved hs').moved hs'')
    · rw [hcell hs' _ (.inr rfl)] at hno
      obtain ⟨v, x, hready⟩ := hready hno
      refine .inr ⟨v, x, hready.registered, hready.works, ?_, hready.transformed⟩
      rw [hcell hs'' _ (.inl rfl), hcell hs' _ (.inl rfl), hready.stored]
  · exact fun _ _ _ _ _ => told_of_record (fun _ => rfl) fun _ => .inr rfl
  · intro v t s' s'' hsides hne hs'' hselect err e'
    rcases h with h | ⟨v', -, hv', -, hboth⟩
    · exact told_of_stale ((h.moved hsides.moved).moved hs'')
    · obtain rfl := Option.some.inj (hsides.source.symm.trans hv')
      have ht : s.vaults job.2 job.1 = some t := (hcell hsides.moved _ (.inr rfl)).symm.trans hsides.target
      rcases hboth t ⟨hsides.sourceWorks, hsides.targetWorks, hv', ht⟩ with heq | hworks
      · exact absurd heq hne
      · exact absurd hworks hselect
  · exact fun _ _ _ _ _ _ _ _ => told_of_copy (fun _ => ⟨rfl, fun _ => rfl⟩) (fun _ => rfl)
      fun _ _ => rfl

theorem told_attempt (h : Stale syncCfg job s ∨ Served e syncCfg job env s) :
    (worker (attempt e syncCfg job)).KeepsNow handle
      ((auditContract syncCfg job).within (attemptFootprint syncCfg job).Within)
      (fun ok _ => Audited syncCfg job ok) env s := by
  have hattempt : (attempt e syncCfg job).KeepsNow handle (auditContract syncCfg job)
      (Told syncCfg job) env s := by
    unfold attempt
    split_ifs with hb
    · exact told_bidirectional hb h
    · rw [Served, if_neg hb] at h
      exact told_unidirectional h
  refine (KeepsNow.bind (hattempt.mono ?_)).within (within_worker (within_attempt ..))
  exact fun r e s hr => keeps_ret fun _ hs' => hr.moved hs'

/-- An attempt leaves the records of the others alone, and in a bidirectional sync their secrets. -/
theorem auditContract_framed {job' : String × String} {op : Call} (hne : job ≠ job')
    (hb : syncCfg.syncType = "bidirectional" → job.2 = job'.2)
    (hop : (attemptFootprint syncCfg job').Within op) :
    (auditContract syncCfg job).rely s (handle op (env, s)).2.2 := by
  refine ⟨frame_row hop ?_ env s, fun hbi v _ => frame_cell hop ?_ env s⟩
  · rw [attemptFootprint_keys]
    intro h
    obtain ⟨ht, hn⟩ := syncKey_inj h
    exact hne (Prod.ext hn ht)
  · rw [attemptFootprint, if_pos hbi]
    exact fun h => hne (Prod.ext h.2 (hb hbi))

end Attempt

/-! ### Runs -/

/-- The steps of a run that keeps its records: what is written to the store is written, and each
    attempt is served when it starts, or has failed before. -/
def RecordsKept (e : Engine) (syncCfg : SyncConfig) {n : ℕ}
    (pool : Pool.Setup Call Call.Ans Env World n) (pair : Fin n → String × String) (w : World)
    (s : Pool.State Call Call.Ans Env World n) (a : Pool.Action n) : Prop :=
  Pool.AtCall (fun _ op e _ => op.Upserts → e.head.Works) s a ∧
    Pool.AtStart pool (fun i s => Stale syncCfg (pair i) w ∨ Served e syncCfg (pair i) (pool.env i) s)
      s a

section Runs

variable {e : Engine} {syncCfg : SyncConfig} {a : RunAnswers} {env : String × String → Env} {n : ℕ}
  {pool : Pool.Setup Call Call.Ans Env World n} {pair : Fin n → String × String} {w : World}

theorem audit_frames (h : Goroutines e syncCfg a env pool pair) (hinj : Function.Injective pair) :
    Pool.Frames pool w (RecordsKept e syncCfg pool pair w)
      (fun i => (auditContract syncCfg (pair i)).within (attemptFootprint syncCfg (pair i)).Within)
      (fun i s => s.syncObjects.lookup (syncKey syncCfg (pair i).2 (pair i).1) =
        w.syncObjects.lookup (syncKey syncCfg (pair i).2 (pair i).1))
      (fun i => Audited syncCfg (pair i)) where
  init := fun _ => rfl
  starts := by
    intro s act _ hc i hact hp hrow
    rw [h.handler, h.task]
    refine told_attempt ((hc.2 i hact hp).imp_left ?_)
    rintro ⟨r, hr, htells⟩
    exact ⟨r, hrow.trans hr, htells⟩
  given := fun _ _ _ hc => hc.1
  frame := by
    intro s act _ _ i op k e' _ _ hcall j hj
    rw [h.handler]
    have hne : pair j ≠ pair i := fun heq => hj (hinj heq)
    have hrely : (auditContract syncCfg (pair j)).rely s.shared (handle op (e', s.shared)).2.2 :=
      auditContract_framed hne (fun hb => h.targets_eq hb j i) hcall.2
    exact ⟨fun hrow => hrely.1.trans hrow, hrely, fun ok hok => hok.moved hrely⟩

end Runs

/-- The objects reported as failed are rows. -/
theorem countP_reportedFailed (w : World) (syncID : String) (p : SyncObject → Bool) :
    (reportedFailed w syncID).countP p = w.syncObjects.rows.countP fun r =>
      p r.toSyncObject ∧ ¬r.toSyncObject.Synced ∧ r.syncID = syncID := by
  rw [reportedFailed, getSyncObjectsBySync, List.countP_filter, List.countP_map,
    (List.mergeSort_perm _ _).countP_eq, List.countP_filter]
  refine List.countP_congr fun r _ => ?_
  simp [and_assoc]

/-- With a record for each attempt, those that tell of a failure are as many as the attempts that
    failed. -/
theorem failure_eq {syncCfg : SyncConfig} {n : ℕ} {pair : Fin n → String × String}
    (hinj : Function.Injective pair) {s : Pool.State Call Call.Ans Env World n} (hs : Pool.Inv s)
    (hr : s.returned = true) {w : World}
    (hrows : ∀ i, ∃ ok, s.phase i = .finished ok ∧ Audited syncCfg (pair i) ok w) :
    s.failure = (reportedFailed w syncCfg.id).countP fun o =>
      ∃ i, syncKey syncCfg (pair i).2 (pair i).1 = o.key := by
  choose ok hfin haud using hrows
  let key (i : Fin n) : SyncKey := syncKey syncCfg (pair i).2 (pair i).1
  have hkey : Function.Injective key := fun i j h =>
    hinj (Prod.ext (syncKey_inj h).2 (syncKey_inj h).1)
  have hcount : s.failure = (Finset.univ.filter fun i => ok i = false).card := by
    rw [(hs.counted hr).2.1, Finset.card_filter]
    refine Finset.sum_congr rfl fun i _ => ?_
    rw [hfin]
    rfl
  let failed (r : SyncObjectRow) : Bool :=
    (∃ i, key i = r.rowKey) ∧ ¬r.toSyncObject.Synced ∧ r.syncID = syncCfg.id
  have hnodup : ((w.syncObjects.rows.filter failed).map SyncObjectRow.rowKey).Nodup :=
    w.syncObjects.keys_nodup.sublist (List.filter_sublist.map _)
  -- the keys of the rows that tell of a failure are those of the attempts that failed
  have himage : ((w.syncObjects.rows.filter failed).map SyncObjectRow.rowKey).toFinset =
      (Finset.univ.filter fun i => ok i = false).image key := by
    ext k
    simp only [List.mem_toFinset, List.mem_map, List.mem_filter, Finset.mem_image,
      Finset.mem_filter, Finset.mem_univ, true_and]
    constructor
    · rintro ⟨r, ⟨hmem, hfailed⟩, rfl⟩
      obtain ⟨⟨i, hi⟩, hsynced, -⟩ := of_decide_eq_true hfailed
      refine ⟨i, ?_, hi⟩
      obtain ⟨r', hr', htells⟩ := haud i
      have hlookup := (Table.lookup_eq_some_iff w.syncObjects.keys_nodup).mpr ⟨hmem, hi.symm⟩
      obtain rfl : r = r' := Option.some.inj (hlookup.symm.trans hr')
      by_contra hok
      rw [Bool.eq_true_of_not_eq_false hok] at htells
      exact hsynced htells
    · rintro ⟨i, hi, rfl⟩
      obtain ⟨r, hr, htells⟩ := haud i
      have hstatus : r.lastSyncStatus = "failed" := by rwa [hi] at htells
      have hrow : r.rowKey = key i := SyncObjectTable.lookup_key hr
      refine ⟨r, ⟨Table.lookup_mem hr, decide_eq_true ⟨⟨i, hrow.symm⟩, ?_, ?_⟩⟩, hrow⟩
      · simp [SyncObject.Synced, hstatus]
      · exact congrArg SyncKey.syncID hrow
  rw [hcount, ← Finset.card_image_of_injective _ hkey, ← himage, List.toFinset_card_of_nodup hnodup,
    List.length_map, countP_reportedFailed, List.countP_eq_length_filter]
  refine congrArg List.length (List.filter_congr fun r _ => ?_)
  simp only [failed, key, SyncObjectRow.rowKey, decide_eq_true_eq]
  exact decide_eq_decide.mpr Iff.rfl

/-- In a run that keeps its records, in which no secret is synced twice with one target, the records
    agree with the run. -/
theorem audit_agrees {e : Engine} {syncCfg : SyncConfig} {a : RunAnswers}
    {env : String × String → Env} {n : ℕ} {pool : Pool.Setup Call Call.Ans Env World n}
    {pair : Fin n → String × String} {w : World} (h : Goroutines e syncCfg a env pool pair)
    (hinj : Function.Injective pair) {s : Pool.State Call Call.Ans Env World n}
    (hs : Pool.Along pool w (RecordsKept e syncCfg pool pair w) s) (hr : s.returned = true) :
    ∃ w', ExecuteSync e syncCfg a env w (.ok ()) w' ∧ AuditAgrees syncCfg pair s w' := by
  refine ⟨_, h.executeSync hs.reaches hr, ?_⟩
  have hrows : ∀ i, ∃ ok, s.phase i = .finished ok ∧ Audited syncCfg (pair i) ok
      (recordSyncRun a syncCfg.id (runStatus ⟨s.success, s.failure⟩) ⟨s.success, s.failure⟩ ""
        s.shared) := by
    intro i
    obtain ⟨ok, hfin, haud⟩ := (audit_frames h hinj).finished hs hr i
    refine ⟨ok, hfin, ?_⟩
    rwa [Audited, (recordSyncRun_idle ..).2]
  exact ⟨hrows, fun _ _ _ _ hstatus =>
    ⟨failedObjects_eq hstatus, failure_eq hinj hs.reaches.inv hr hrows⟩⟩

/-- The step is no write to the store that fails. -/
def keepsRecord {n : ℕ} (s : Pool.State Call Call.Ans Env World n) : Pool.Action n → Bool
  | .exec i =>
    match s.phase i with
    | .running (.call op _) e => ¬op.Upserts ∨ e.head.Works
    | _ => true
  | _ => true

def copyAnswers : RunAnswers := { relisting := { names := ["k", "m"] } }

/-- The secret and the target of each goroutine. -/
def copyPair (i : Fin (unidirectionalJobs copySync ["k", "m"]).length) : String × String :=
  (unidirectionalJobs copySync ["k", "m"])[i]

theorem copy_pair (i : Fin (unidirectionalJobs copySync ["k", "m"]).length) :
    copyPair i = ("k", "b") ∨ copyPair i = ("m", "b") := by
  have hmem : copyPair i ∈ unidirectionalJobs copySync ["k", "m"] := List.getElem_mem i.isLt
  have hjobs : unidirectionalJobs copySync ["k", "m"] = [("k", "b"), ("m", "b")] := by decide +kernel
  rw [hjobs] at hmem
  simpa using hmem

theorem copy_goroutines :
    Goroutines pairEngine copySync copyAnswers copyEnv copyPool copyPair :=
  .unidirectional (by decide) rfl rfl rfl

/-- The goroutines do not write to the source. -/
theorem copy_source {u : Pool.State Call Call.Ans Env World _} (hu : Pool.Reaches copyPool copyWorld u)
    (name : String) : u.shared.vaults "a" name = copyWorld.vaults "a" name := by
  refine ((unidirectional_confined pairEngine (by decide) (by decide) (by decide)).invariant hu
    (I := fun w => w.vaults "a" name = copyWorld.vaults "a" name)
    (fun job hj op env w hop hw => (frame_cell hop (fun h => ?_) env w).trans hw) rfl copyEnv).1
  have htarget : job.2 ∈ copySync.targets := (List.pair_mem_product.mp hj).2
  rw [← h.1] at htarget
  exact absurd htarget (by decide)

/-- So each of them is served whenever it starts. -/
theorem copy_served {u : Pool.State Call Call.Ans Env World _} (hu : Pool.Reaches copyPool copyWorld u)
    (i : Fin (unidirectionalJobs copySync ["k", "m"]).length) :
    Served pairEngine copySync (copyPair i) (copyPool.env i) u.shared := by
  have hready {job : String × String} {v : Bytes} (htarget : job.2 ∈ pairEngine.backends)
      (hworks : ((copyEnv job).get 0).Works) (hv : copyWorld.vaults "a" job.1 = some v) :
      Served pairEngine copySync job (copyEnv job) u.shared :=
    ⟨v, v, htarget, hworks, (copy_source hu job.1).trans hv, rfl⟩
  rw [copy_goroutines.answers]
  rcases copy_pair i with hi | hi <;> rw [hi]
  · exact hready (by decide) rfl rfl
  · exact hready (by decide) rfl rfl

/-- One of the two secrets is copied, and the other cannot be written. -/
theorem audit_agrees_push : ∃ s w', Pool.Reaches copyPool copyWorld s ∧ s.returned = true ∧
    s.success = 1 ∧ s.failure = 1 ∧
    ExecuteSync pairEngine copySync copyAnswers copyEnv copyWorld (.ok ()) w' ∧
    AuditAgrees copySync copyPair s w' := by
  have hkept : ∀ u act, Pool.Reaches copyPool copyWorld u → keepsRecord u act = true →
      RecordsKept pairEngine copySync copyPool copyPair copyWorld u act := by
    refine fun u act hu hc => ⟨?_, fun i _ _ => .inr (copy_served hu i)⟩
    rintro i op k e rfl hp hupserts
    rw [keepsRecord, hp] at hc
    simpa [hupserts] using hc
  obtain ⟨s, hs, hend⟩ := Pool.exists_along_of_followWhile hkept copySchedule
    (fun s => (s.returned, s.success, s.failure)) (b := (true, 1, 1)) (by decide +kernel)
  simp only [Prod.mk.injEq] at hend
  obtain ⟨hr, hsuccess, hfailure⟩ := hend
  have hinj : Function.Injective copyPair := List.nodup_iff_injective_getElem.mp (by decide)
  obtain ⟨w', hrun, haudit⟩ := audit_agrees copy_goroutines hinj hs hr
  exact ⟨s, w', hs.reaches, hr, hsuccess, hfailure, hrun, haudit⟩

/-- Vault `a` is copied to vault `b`. -/
def pushSync : SyncConfig := { pairSync with syncType := "unidirectional" }

/-- A run of `pushSync` with one secret, whose calls get the answers `env`. -/
def pushPool (env : Env) :
    Pool.Setup Call Call.Ans Env World (unidirectionalJobs pushSync ["k"]).length :=
  workerPool (unidirectionalJobs pushSync ["k"])
    (fun job => syncSecretUnidirectional pairEngine pushSync job.2 job.1 "a") 1 fun _ => env

def pushJob : Fin (unidirectionalJobs pushSync ["k"]).length := ⟨0, by decide +kernel⟩

/-- The secret and the target of its goroutine. -/
def pushPair (i : Fin (unidirectionalJobs pushSync ["k"]).length) : String × String :=
  (unidirectionalJobs pushSync ["k"])[i]

/-- The goroutine makes so many calls, and then the run ends. -/
def pushSchedule (calls : ℕ) : List (Pool.Action (unidirectionalJobs pushSync ["k"]).length) :=
  [.launch, .spawnCloser] ++ Pool.serve pushJob calls ++ [.close, .receive, .finish]

def pushAnswers : RunAnswers := { relisting := { names := ["k"] } }

theorem push_goroutines (env : Env) :
    Goroutines pairEngine pushSync pushAnswers (fun _ => env) (pushPool env) pushPair :=
  .unidirectional (by decide) rfl rfl rfl

theorem push_succeeds : ∃ s, Pool.Reaches (pushPool noFaults) (pairWorld (some (utf8 "v")) none) s ∧
    (s.returned, (s.shared.syncObjects.lookup (syncKey pushSync "b" "k")).map (·.lastSyncStatus)) =
      (true, some "success") :=
  Pool.exists_of_follow _ _ (pushSchedule 7) _ (by decide +kernel)

/-- The read of the source fails, and nothing else. -/
def readDown : Env := Stream'.cons { fault := some (.new "timeout") } noFaults

theorem push_fails (w : World) : ∃ s, Pool.Reaches (pushPool readDown) w s ∧
    (s.returned, s.shared, s.phase pushJob) = (true, w, .finished false) :=
  Pool.exists_of_follow _ _ (pushSchedule 1) _ rfl

/-- After a run that went well, a run whose read of the source fails leaves the record of success. -/
theorem stale_success : ∃ w₁ s w', ExecuteSync pairEngine pushSync pushAnswers (fun _ => noFaults)
      (pairWorld (some (utf8 "v")) none) (.ok ()) w₁ ∧
    Goroutines pairEngine pushSync pushAnswers (fun _ => readDown) (pushPool readDown) pushPair ∧
    Pool.Reaches (pushPool readDown) w₁ s ∧ s.returned = true ∧
    ExecuteSync pairEngine pushSync pushAnswers (fun _ => readDown) w₁ (.ok ()) w' ∧
    ¬AuditAgrees pushSync pushPair s w' := by
  obtain ⟨s₁, hs₁, hr₁⟩ := push_succeeds
  obtain ⟨hr₁, hstatus⟩ := Prod.mk.inj hr₁
  have hrun₁ := (push_goroutines noFaults).executeSync hs₁ hr₁
  obtain ⟨s, hs, hr⟩ := push_fails (recordSyncRun pushAnswers pushSync.id
    (runStatus ⟨s₁.success, s₁.failure⟩) ⟨s₁.success, s₁.failure⟩ "" s₁.shared)
  simp only [Prod.mk.injEq] at hr
  obtain ⟨hr, hshared, hphase⟩ := hr
  refine ⟨_, s, _, hrun₁, push_goroutines readDown, hs, hr,
    (push_goroutines readDown).executeSync hs hr, fun haudit => ?_⟩
  obtain ⟨ok, hok, r, hrow, htells⟩ := haudit.rows pushJob
  obtain rfl := Pool.Phase.finished.inj (hok.symm.trans hphase)
  rw [(recordSyncRun_idle ..).2, hshared, (recordSyncRun_idle ..).2] at hrow
  have hkey : syncKey pushSync (pushPair pushJob).2 (pushPair pushJob).1 = syncKey pushSync "b" "k" :=
    rfl
  rw [hkey] at hrow
  rw [hrow] at hstatus
  have hfailed : r.lastSyncStatus = "failed" := htells
  simp [hfailed] at hstatus

end VaultsSyncer
