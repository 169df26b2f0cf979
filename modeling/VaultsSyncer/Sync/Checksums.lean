import VaultsSyncer.Sync.SecretAudit

/-! The checksums of a record, next to the values in the vaults when it is written. A copy one way
    records the checksum of the source for both sides, also where a transform has changed the value on
    its way (`checksums_hold`, `transformed_checksum`). -/

namespace VaultsSyncer

open GoStd Schemes Schemes.Prog

/-- The checksum of the value a vault holds under a name. -/
def World.checksum (w : World) (vault name : String) : Option String :=
  (w.vaults vault name).map hashString

/-- Both checksums of the record are those of the values that the vaults hold. -/
def ChecksumsHold (o : SyncObject) (w : World) : Prop :=
  w.checksum o.sourceVaultID o.secretName = some o.sourceChecksum ∧
    w.checksum o.targetVaultID o.secretName = some o.targetChecksum

/-- With `env'` in store the attempt starts to copy one way. -/
def OneWay (syncCfg : SyncConfig) (job : String × String) (env : Env) (w : World) (env' : Env) : Prop :=
  if syncCfg.syncType = "bidirectional" then
    env' = env.drop 2 ∧ (env.get 0).Works ∧
      ¬((env.get 1).Works ∧ ∃ t, w.vaults job.2 job.1 = some t)
  else env' = env

/-- A value that is copied one way keeps its checksum. -/
def Transparent (e : Engine) (syncCfg : SyncConfig) (job : String × String) (env : Env) (w : World) :
    Prop :=
  ∀ env', OneWay syncCfg job env w env' → firstWorking syncCfg.attempts (env'.drop 1) ≠ none → ∀ v x,
    Ready e syncCfg job.2 job.1 syncCfg.source env' w v x → hashString x = hashString v

section Attempt

variable (e : Engine) (syncCfg : SyncConfig) (job : String × String)

/-- A record that is written with success has the checksums of the vaults. -/
def Call.Truthful (op : Call) (env : Env) (w : World) : Prop :=
  ∀ o, op.saved env.head w = some o → o.Synced → ChecksumsHold o w

/-- Nobody changes the checksum of the source, or that of the target once it is the same; in a
    bidirectional sync nobody else touches the secret. -/
def checksumContract : Contract Call Env World where
  rely := fun s s' => s'.checksum syncCfg.source job.1 = s.checksum syncCfg.source job.1 ∧
    (s.checksum job.2 job.1 = s.checksum syncCfg.source job.1 →
      s'.checksum job.2 job.1 = s'.checksum syncCfg.source job.1) ∧
    (syncCfg.syncType = "bidirectional" → ∀ v, v = syncCfg.source ∨ v = job.2 →
      s'.vaults v job.1 = s.vaults v job.1)
  given := fun _ _ _ => True
  call := fun op e s => op.Truthful e s ∧ (syncCfg.syncType ≠ "bidirectional" → ∀ x,
    op = .setSecret job.2 job.1 x → e.head.Works →
      s.checksum syncCfg.source job.1 = some (hashString x))
  refl := fun _ => ⟨rfl, id, fun _ _ _ => rfl⟩
  trans := fun h h' => ⟨h'.1.trans h.1, fun heq => h'.2.1 (h.2.1 heq),
    fun hb v hv => (h'.2.2 hb v hv).trans (h.2.2 hb v hv)⟩

variable {e syncCfg job} {env : Env} {s s' : World}

theorem checksum_quiet (op : Call) (env : Env) (s : World) (h : op.Quiet) :
    (checksumContract syncCfg job).call op env s := by
  refine ⟨fun o ho => ?_, fun _ x hx => ?_⟩
  · cases op <;> simp [Call.saved, Call.Quiet] at ho h
  · subst hx
    exact h.elim

/-- A record is truthful where its checksums hold from here on, unless it tells of a failure. -/
theorem truthful_record {o : ℤ → SyncObject} {res : Except GoError Unit} {K : World → Prop}
    (hrely : ∀ u u', (checksumContract syncCfg job).rely u u' → K u → K u')
    (hvaults : ∀ u u' : World, u'.vaults = u.vaults → K u → K u')
    (hK : ∀ t u, K u → (o t).Synced → ChecksumsHold (o t) u) (hs : K s) :
    (record o res).Keeps handle (checksumContract syncCfg job) (fun _ _ _ => True) env s := by
  refine keeps_record checksum_quiet (fun s' hs' => ?_) fun _ _ _ _ _ => trivial
  refine (keeps_upsert checksum_quiet hrely ?_ ?_ (hrely s s' hs' hs)).mono fun _ _ _ _ => trivial
  · exact fun t e' u hu => ⟨⟨fun o' ho' => saved_update ho' ▸ hK _ u hu, fun _ _ h => by cases h⟩,
      hvaults u _ (handle_vaults (by simp) e' u) hu⟩
  · exact fun t e' u hu => ⟨⟨fun o' ho' => saved_insert ho' ▸ hK _ u hu, fun _ _ h => by cases h⟩,
      hvaults u _ (handle_vaults (by simp) e' u) hu⟩

/-- A record of a failure promises nothing. -/
theorem truthful_failure {o : ℤ → SyncObject} {res : Except GoError Unit}
    (ho : ∀ t, (o t).lastSyncStatus = "failed") :
    (record o res).Keeps handle (checksumContract syncCfg job) (fun _ _ _ => True) env s :=
  truthful_record (K := fun _ => True) (fun _ _ _ _ => trivial) (fun _ _ _ _ => trivial)
    (fun t _ _ h => by simp [SyncObject.Synced, ho t] at h) trivial

/-! ### Copies -/

theorem checksum_eq {w : World} {vault name : String} {x : Bytes} (h : w.vaults vault name = some x) :
    w.checksum vault name = some (hashString x) := by
  rw [World.checksum, h]
  rfl

/-- A write whose value has the checksum of the source brings the target to it. -/
theorem checksum_setVault {source name : String} (target : String) {x : Bytes} {w : World}
    (h : w.checksum source name = some (hashString x)) :
    (w.setVault target name x).checksum source name = some (hashString x) ∧
      (w.setVault target name x).checksum target name = some (hashString x) := by
  refine ⟨?_, checksum_eq (w.setVault_self ..)⟩
  rcases eq_or_ne source target with rfl | hne
  · exact checksum_eq (w.setVault_self ..)
  · rw [World.checksum, w.setVault_of_ne x (.inl hne)]
    exact h

theorem truthful_copyValue {v x : Bytes} (hv : s.vaults syncCfg.source job.1 = some v)
    (hclear : firstWorking syncCfg.attempts env ≠ none → hashString x = hashString v) :
    (copyValue syncCfg job.2 job.1 v x).Keeps handle (checksumContract syncCfg job)
      (fun _ _ _ => True) env s := by
  refine keeps_copyAndRecord checksum_quiet (fun e' s' hworks hs' => ?_) ?_
    fun err e' s' _ => truthful_failure fun _ => rfl
  · refine ⟨fun o ho => absurd ho (Option.some_ne_none o).symm, fun _ x' heq hw => ?_⟩
    obtain rfl := (Call.setSecret.inj heq).2.2
    rw [hs'.1, checksum_eq hv, hclear (hworks hw)]
  · intro hfirst e' s' s'' hs' hs''
    -- from the write on both sides have the checksum of what was read
    have hsource : s'.checksum syncCfg.source job.1 = some (hashString x) := by
      rw [hs'.1, checksum_eq hv, hclear hfirst]
    have hset := checksum_setVault job.2 hsource
    have hdone : s''.checksum syncCfg.source job.1 = some (hashString v) := by
      rw [hs''.1, hset.1, hclear hfirst]
    refine truthful_record (K := fun u => u.checksum syncCfg.source job.1 = some (hashString v) ∧
      u.checksum job.2 job.1 = some (hashString v)) ?_ ?_ (fun _ _ hu _ => hu) ⟨hdone, ?_⟩
    · intro u u' hu hK
      have hsource' := hu.1.trans hK.1
      exact ⟨hsource', (hu.2.1 (hK.2.trans hK.1.symm)).trans hsource'⟩
    · intro u u' hu hK
      rwa [World.checksum, World.checksum, hu]
    · exact (hs''.2.1 (hset.2.trans hset.1.symm)).trans hdone

theorem truthful_unidirectional (hclear : firstWorking syncCfg.attempts (env.drop 1) ≠ none → ∀ v x,
      Ready e syncCfg job.2 job.1 syncCfg.source env s v x → hashString x = hashString v) :
    (syncSecretUnidirectional e syncCfg job.2 job.1 syncCfg.source).KeepsNow handle
      (checksumContract syncCfg job) (fun _ _ _ => True) env s :=
  keepsNow_unidirectional checksum_quiet (fun _ _ _ => keeps_ret fun _ _ => trivial) fun v x hready =>
    truthful_copyValue hready.stored fun hfirst => hclear hfirst v x hready

/-- A direction leaves the value it copies on both sides. -/
theorem setVault_dst {source target name : String} {v t : Bytes} {w : World} (d : Direction)
    (hv : w.vaults source name = some v) (ht : w.vaults target name = some t) :
    ∀ c, c = source ∨ c = target →
      (w.setVault (d.dst source target) name (d.pick v t)).vaults c name = some (d.pick v t) := by
  intro c hc
  rcases eq_or_ne c (d.dst source target) with rfl | hne
  · exact w.setVault_self ..
  · rw [w.setVault_of_ne _ (.inl hne)]
    cases d with
    | sourceToTarget =>
      obtain rfl := hc.resolve_right hne
      exact hv
    | targetToSource =>
      obtain rfl := hc.resolve_left hne
      exact ht

section Bidirectional

variable (hb : syncCfg.syncType = "bidirectional")

include hb

theorem truthful_copyEitherWay {v t : Bytes} (hv : s.vaults syncCfg.source job.1 = some v)
    (ht : s.vaults job.2 job.1 = some t) (d : Direction) :
    (copyEitherWay syncCfg job.2 job.1 syncCfg.source job.2 v t d).Keeps handle
      (checksumContract syncCfg job) (fun _ _ _ => True) env s := by
  refine keeps_copyAndRecord checksum_quiet (fun e' s' _ _ => ?_) (fun _ e' s' s'' hs' hs'' => ?_)
    fun err e' s' _ => truthful_failure fun _ => rfl
  · exact ⟨fun o ho => absurd ho (Option.some_ne_none o).symm, fun hnb => absurd hb hnb⟩
  · have hset := setVault_dst d ((hs'.2.2 hb _ (.inl rfl)).trans hv)
      ((hs'.2.2 hb _ (.inr rfl)).trans ht)
    refine truthful_record (K := fun u => ∀ c, c = syncCfg.source ∨ c = job.2 →
      u.vaults c job.1 = some (d.pick v t)) ?_ ?_ ?_ ?_
    · exact fun u u' hu hK c hc => (hu.2.2 hb c hc).trans (hK c hc)
    · exact fun u u' hu hK c hc => hu ▸ hK c hc
    · exact fun _ u hK _ => ⟨checksum_eq (hK _ (.inl rfl)), checksum_eq (hK _ (.inr rfl))⟩
    · exact fun c hc => (hs''.2.2 hb c hc).trans (hset c hc)

theorem truthful_bidirectional (hclear : Transparent e syncCfg job env s) :
    (syncSecretBidirectional e syncCfg job.2 job.1 syncCfg.source job.2).KeepsNow handle
      (checksumContract syncCfg job) (fun _ _ _ => True) env s := by
  have hcell : ∀ {u u' : World}, (checksumContract syncCfg job).rely u u' →
      ∀ c, c = syncCfg.source ∨ c = job.2 → u'.vaults c job.1 = u.vaults c job.1 :=
    fun hu => hu.2.2 hb
  refine keepsNow_bidirectional checksum_quiet (fun _ _ _ => keeps_ret fun _ _ => trivial) ?_ ?_
    (fun _ _ _ _ _ _ _ _ _ _ => keeps_ret fun _ _ => trivial) ?_
  · intro v s' hw hv hs' hno
    refine keeps_iff.mpr fun s'' hs'' => truthful_unidirectional fun hfirst v' x hready => ?_
    refine hclear (env.drop 2) ?_ hfirst v' x ⟨hready.registered, hready.works, ?_, hready.transformed⟩
    · rw [OneWay, if_pos hb, ← hcell hs' _ (.inr rfl)]
      exact ⟨rfl, hw, hno⟩
    · rw [← hcell hs' _ (.inl rfl), ← hcell hs'' _ (.inl rfl), hready.stored]
  · intro v t s' hsides heq
    refine truthful_record (K := fun u => u.vaults syncCfg.source job.1 = some v ∧
      u.vaults job.2 job.1 = some t) ?_ ?_ ?_
      ⟨(hcell hsides.moved _ (.inl rfl)).trans hsides.source, hsides.target⟩
    · exact fun u u' hu hK =>
        ⟨(hcell hu _ (.inl rfl)).trans hK.1, (hcell hu _ (.inr rfl)).trans hK.2⟩
    · exact fun u u' hu hK => hu ▸ hK
    · exact fun _ u hK _ => ⟨checksum_eq hK.1, checksum_eq hK.2⟩
  · intro v t s' s'' d hsides _ hs''
    exact truthful_copyEitherWay hb ((hcell hs'' _ (.inl rfl)).trans
      ((hcell hsides.moved _ (.inl rfl)).trans hsides.source))
      ((hcell hs'' _ (.inr rfl)).trans hsides.target) d

end Bidirectional

theorem truthful_attempt (hclear : Transparent e syncCfg job env s) :
    (worker (attempt e syncCfg job)).KeepsNow handle
      ((checksumContract syncCfg job).within (attemptFootprint syncCfg job).Within)
      (fun _ _ _ => True) env s := by
  have hattempt : (attempt e syncCfg job).KeepsNow handle (checksumContract syncCfg job)
      (fun _ _ _ => True) env s := by
    unfold attempt
    split_ifs with hb
    · exact truthful_bidirectional hb hclear
    · exact truthful_unidirectional (hclear env (by rw [OneWay, if_neg hb]))
  refine (KeepsNow.bind (hattempt.mono ?_)).within (within_worker (within_attempt ..))
  exact fun r e s hr => keeps_ret fun _ _ => trivial

variable (job) in
/-- A one-way write of another attempt changes no checksum of the source, nor that of a target that is
    the same. -/
theorem checksum_write {job' : String × String} {x : Bytes}
    (hx : s.checksum syncCfg.source job'.1 = some (hashString x)) :
    (s.setVault job'.2 job'.1 x).checksum syncCfg.source job.1 = s.checksum syncCfg.source job.1 ∧
      (s.checksum job.2 job.1 = s.checksum syncCfg.source job.1 →
        (s.setVault job'.2 job'.1 x).checksum job.2 job.1 =
          (s.setVault job'.2 job'.1 x).checksum syncCfg.source job.1) := by
  rcases eq_or_ne job.1 job'.1 with hn | hn
  · obtain ⟨hsource, htarget⟩ := checksum_setVault job'.2 hx
    rw [hn, hsource, hx]
    refine ⟨rfl, fun heq => ?_⟩
    rcases eq_or_ne job.2 job'.2 with ht | ht
    · rw [ht, htarget]
    · rw [World.checksum, s.setVault_of_ne x (.inl ht)]
      exact heq
  · simp only [World.checksum, s.setVault_of_ne x (.inr hn)]
    exact ⟨trivial, id⟩

/-- The calls of an attempt are within the contracts of the others. -/
theorem checksumContract_framed {job' : String × String} {op : Call}
    (hne : syncCfg.syncType = "bidirectional" → job ≠ job' ∧ job.2 = job'.2)
    (hcall : ((checksumContract syncCfg job').within (attemptFootprint syncCfg job').Within).call op
      env s) : (checksumContract syncCfg job).rely s (handle op (env, s)).2.2 := by
  obtain ⟨⟨-, hwrite⟩, hop⟩ := hcall
  by_cases hb : syncCfg.syncType = "bidirectional"
  · have hcell : ∀ c, (handle op (env, s)).2.2.vaults c job.1 = s.vaults c job.1 := by
      refine fun c => frame_cell hop ?_ env s
      rw [attemptFootprint, if_pos hb]
      exact fun h => (hne hb).1 (Prod.ext h.2 (hne hb).2)
    simp only [checksumContract, World.checksum, hcell]
    exact ⟨trivial, id, fun _ _ _ => trivial⟩
  · have hunmoved (h : (handle op (env, s)).2.2.vaults = s.vaults) :
        (checksumContract syncCfg job).rely s (handle op (env, s)).2.2 := by
      simp only [checksumContract, World.checksum, h]
      exact ⟨trivial, id, fun _ _ _ => trivial⟩
    by_cases hset : ∃ v m x, op = .setSecret v m x
    · obtain ⟨v, m, x, rfl⟩ := hset
      rw [attemptFootprint, if_neg hb] at hop
      obtain ⟨rfl, rfl⟩ : v = job'.2 ∧ m = job'.1 := hop
      by_cases hw : env.head.Works
      · have hworld : (handle (.setSecret job'.2 job'.1 x) (env, s)).2.2 = s.setVault job'.2 job'.1 x := by
          simp only [handle, Answer.commit_of_works hw]
        rw [hworld]
        obtain ⟨hsource, htarget⟩ := checksum_write job (hwrite hb x rfl hw)
        exact ⟨hsource, htarget, fun hb' => absurd hb' hb⟩
      · obtain ⟨err, herr⟩ := Answer.commit_of_fault hw (.ok (), s.setVault job'.2 job'.1 x) s
        refine hunmoved ?_
        simp only [handle, herr]
    · exact hunmoved (handle_vaults (fun v m x h => hset ⟨v, m, x, h⟩) env s)

end Attempt

/-! ### Runs -/

section Runs

variable {e : Engine} {syncCfg : SyncConfig} {a : RunAnswers} {env : String × String → Env} {n : ℕ}
  {pool : Pool.Setup Call Call.Ans Env World n} {pair : Fin n → String × String}

theorem checksum_frames (h : Goroutines e syncCfg a env pool pair)
    (hinj : syncCfg.syncType = "bidirectional" → Function.Injective pair) (w : World) :
    Pool.Frames pool w
      (Pool.AtStart pool fun i s => Transparent e syncCfg (pair i) (pool.env i) s)
      (fun i => (checksumContract syncCfg (pair i)).within (attemptFootprint syncCfg (pair i)).Within)
      (fun _ _ => True) (fun _ _ _ => True) where
  init := fun _ => trivial
  starts := by
    intro s act _ hc i hact hp _
    rw [h.handler, h.task]
    exact truthful_attempt (hc i hact hp)
  given := fun _ _ _ _ _ _ _ _ _ _ => trivial
  frame := by
    intro s act _ _ i op k e' _ _ hcall j hj
    rw [h.handler]
    refine ⟨id, checksumContract_framed (fun hb => ⟨?_, h.targets_eq hb j i⟩) hcall, fun _ => id⟩
    exact fun heq => hj (hinj hb heq)

/-- In a run in which values that are copied one way keep their checksums, and a bidirectional one
    lists no secret twice, each record that is written with success has the checksums of the values
    in the vaults at that moment. -/
theorem checksums_hold (h : Goroutines e syncCfg a env pool pair)
    (hinj : syncCfg.syncType = "bidirectional" → Function.Injective pair) {w : World}
    {s : Pool.State Call Call.Ans Env World n} {act : Pool.Action n}
    (hs : Pool.Along pool w
      (Pool.AtStart pool fun i s => Transparent e syncCfg (pair i) (pool.env i) s) s)
    (hact : Pool.AtStart pool (fun i s => Transparent e syncCfg (pair i) (pool.env i) s) s act) :
    Pool.AtCall (fun _ op env s => op.Truthful env s) s act :=
  fun i op k e' hexec hp => ((checksum_frames h hinj w).at_call hs hact i op k e' hexec hp).1.1

end Runs

instance (o : SyncObject) (w : World) : Decidable (ChecksumsHold o w) :=
  inferInstanceAs (Decidable (_ ∧ _))

/-- Whether the goroutine `i` is about to write a record of success, and whether its checksums hold. -/
def aboutToRecord {n : ℕ} (i : Fin n) (s : Pool.State Call Call.Ans Env World n) : Option Bool :=
  match s.phase i with
  | .running (.call op _) e =>
    match op.saved e.head s.shared with
    | some o => if o.Synced then some (ChecksumsHold o s.shared) else none
    | none => none
  | _ => none

theorem not_truthful {n : ℕ} {i : Fin n} {s : Pool.State Call Call.Ans Env World n}
    (h : aboutToRecord i s = some false) :
    ¬Pool.AtCall (fun _ op env s => op.Truthful env s) s (.exec i) := by
  intro htruthful
  unfold aboutToRecord at h
  split at h
  · rename_i op k e hp
    split at h
    · rename_i o ho
      split_ifs at h with hsynced
      have hfalse := Option.some.inj h
      exact of_decide_eq_false hfalse (htruthful i op k e rfl hp o ho hsynced)
    · cases h
  · cases h

/-- One secret cannot be written, and the record of the other is about to be. -/
theorem checksums_hold_push : ∃ s, Pool.Reaches copyPool copyWorld s ∧ s.results = [false] ∧
    aboutToRecord copyK s = some true ∧
    Pool.AtCall (fun _ op env s => op.Truthful env s) s (.exec copyK) := by
  obtain ⟨s, hs, hend⟩ := Pool.exists_of_follow copyPool copyWorld copyTurns
    (fun s => (s.results, aboutToRecord copyK s)) (b := ([false], some true)) (by decide +kernel)
  obtain ⟨hresults, hrecord⟩ := Prod.mk.inj hend
  have hclear (i) (u : World) : Transparent pairEngine copySync (copyPair i) (copyPool.env i) u :=
    fun _ _ _ v x hready => congrArg hashString (Except.ok.inj hready.transformed).symm
  have hcopy : copySync.syncType ≠ "bidirectional" := by decide
  exact ⟨s, hs, hresults, hrecord, checksums_hold copy_goroutines (fun hb => absurd hb hcopy)
    (Pool.Reaches.along (fun u act hu i _ _ => hclear i u.shared) hs) fun i _ _ => hclear i s.shared⟩

/-- Vault `a` is copied to vault `b` in base64. -/
def encodeSync : SyncConfig :=
  { pushSync with transforms := [{ field := "value", type := "base64_encode" }] }

/-- The record says that the target holds what the source holds, but it holds that in base64. -/
theorem transformed_checksum : ∃ s, Pool.Reaches (workerPool (unidirectionalJobs encodeSync ["k"])
      (fun job => syncSecretUnidirectional pairEngine encodeSync job.2 job.1 "a") 1 fun _ => noFaults)
      (pairWorld (some (utf8 "v")) none) s ∧
    ¬Pool.AtCall (fun _ op env s => op.Truthful env s) s (.exec pushJob) := by
  obtain ⟨s, hs, hrecord⟩ := Pool.exists_of_follow
    (workerPool (unidirectionalJobs encodeSync ["k"])
      (fun job => syncSecretUnidirectional pairEngine encodeSync job.2 job.1 "a") 1 fun _ => noFaults)
    (pairWorld (some (utf8 "v")) none)
    ([.launch, .acquire pushJob] ++ List.replicate 6 (.exec pushJob)) (aboutToRecord pushJob)
    (b := some false) (by decide +kernel)
  exact ⟨s, hs, not_truthful hrecord⟩

end VaultsSyncer
