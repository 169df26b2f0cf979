import VaultsSyncer.Sync.Conflicts
import VaultsSyncer.Sync.Interleavings

/-! `ExecuteSync`: one run of a configured sync, from the first listing to the `syncs_run` row. A
    bidirectional run goes through the names that the source lists, so it replicates what the target
    alone holds only if the source has the name too (`replication_complete_iff`). -/

namespace VaultsSyncer

open GoStd Schemes Schemes.Prog

/-- What the surroundings have in store for the main thread of one `ExecuteSync`. -/
structure RunAnswers where
  listing : Answer := {}
  relisting : Answer := {}
  record : Answer := {}
  durationMs : ℤ := 0

/-- The status of a run by its counts. -/
def runStatus (result : SyncResult) : String :=
  if result.success = 0 then "failed"
  else if result.failure > 0 then "partial"
  else "success"

/-- `RecordSyncRun`; its error is dropped. -/
def recordSyncRun (a : RunAnswers) (syncID status : String) (result : SyncResult)
    (errorMessage : String) (w : World) : World :=
  (handle (.insertSyncRun { id := 0, syncID := syncID, status := status
                            totalSynced := result.success, totalFailed := result.failure
                            durationMs := a.durationMs, errorMessage := errorMessage
                            createdAt := 0 }) (Stream'.const a.record, w)).2.2

@[simp] theorem recordSyncRun_vaults (a : RunAnswers) (syncID status : String) (result : SyncResult)
    (errorMessage : String) (w : World) :
    (recordSyncRun a syncID status result errorMessage w).vaults = w.vaults := by
  simp only [recordSyncRun, handle, Answer.commit]
  cases (Stream'.const a.record).head.fault <;> rfl

/-- The number of workers: one where none is configured. -/
def SyncConfig.workerCount (syncCfg : SyncConfig) : ℕ :=
  if syncCfg.concurrentWorkers ≤ 0 then 1 else syncCfg.concurrentWorkers.toNat

/-- Runs a sync operation: what it can return and leave. A bidirectional sync without a target
    panics, so it has no case. -/
inductive ExecuteSync (e : Engine) (syncCfg : SyncConfig) (a : RunAnswers)
    (env : String × String → Env) (w : World) : Except GoError Unit → World → Prop
  | noSource (h : syncCfg.source ∉ e.backends) :
      ExecuteSync e syncCfg a env w
        (.error (.new ("source vault backend not found: " ++ syncCfg.source))) w
  | unlisted {err : GoError} (h : syncCfg.source ∈ e.backends) (hlist : a.listing.fault = some err) :
      ExecuteSync e syncCfg a env w (.error err)
        (recordSyncRun a syncCfg.id "failed" ⟨0, 0⟩
          ("failed to list secrets from source: " ++ err.text) w)
  | unidirectional {result : SyncResult} {w' : World} (h : syncCfg.source ∈ e.backends)
      (hlist : a.listing.Works) (htype : syncCfg.syncType = "unidirectional")
      (hrun : executeSyncUnidirectionalConcurrent e syncCfg syncCfg.source syncCfg.workerCount
        a.relisting env w result w') :
      ExecuteSync e syncCfg a env w (.ok ())
        (recordSyncRun a syncCfg.id (runStatus result) result "" w')
  | noTarget {targetID : String} (h : syncCfg.source ∈ e.backends) (hlist : a.listing.Works)
      (htype : syncCfg.syncType = "bidirectional") (hfirst : syncCfg.targets.head? = some targetID)
      (htarget : targetID ∉ e.backends) :
      ExecuteSync e syncCfg a env w
        (.error (.new ("target vault backend not found: " ++ targetID))) w
  | bidirectional {targetID : String} {result : SyncResult} {w' : World}
      (h : syncCfg.source ∈ e.backends) (hlist : a.listing.Works)
      (htype : syncCfg.syncType = "bidirectional") (hfirst : syncCfg.targets.head? = some targetID)
      (htarget : targetID ∈ e.backends)
      (hrun : executeSyncBidirectionalConcurrent e syncCfg targetID syncCfg.source targetID
        syncCfg.workerCount a.relisting (fun n => env (n, targetID)) w result w') :
      ExecuteSync e syncCfg a env w (.ok ())
        (recordSyncRun a syncCfg.id (runStatus result) result "" w')
  | otherType (h : syncCfg.source ∈ e.backends) (hlist : a.listing.Works)
      (htype : syncCfg.syncType ≠ "unidirectional" ∧ syncCfg.syncType ≠ "bidirectional") :
      ExecuteSync e syncCfg a env w (.ok ())
        (recordSyncRun a syncCfg.id (runStatus ⟨0, 0⟩) ⟨0, 0⟩ "" w)

/-! ### Complete replication -/

/-- A name passes the filter. -/
def FilterConfig.Passes (filter : FilterConfig) (name : String) : Prop :=
  name ∈ filterSecrets [name] filter

instance (filter : FilterConfig) (name : String) : Decidable (filter.Passes name) :=
  inferInstanceAs (Decidable (name ∈ filterSecrets [name] filter))

theorem mem_filterSecrets {secrets : List String} {filter : FilterConfig} {name : String} :
    name ∈ filterSecrets secrets filter ↔ name ∈ secrets ∧ filter.Passes name := by
  unfold FilterConfig.Passes filterSecrets
  by_cases h : filter.patterns = [] ∧ filter.exclude = []
  · simp [h]
  · simp only [h, if_false, List.mem_filter, List.mem_singleton, true_and]

/-- The calls to the two vaults work while `secretName` is synced: the reads, the second read of the
    source when the target has no value, and the first write. The store may fail. -/
structure VaultsWork (targetID secretName : String) (env : Env) (w : World) : Prop where
  source : (env.get 0).Works
  target : (env.get 1).Works
  again : w.vaults targetID secretName = none → (env.get 2).Works
  write : (env.get 3).Works

/-- Both vaults hold one value. -/
def Replicated (source target : String) (w : World) (secretName : String) : Prop :=
  ∃ x, w.vaults source secretName = some x ∧ w.vaults target secretName = some x

/-- What it takes to bring the values of a name together: the source has it; and the target has the
    same value already, or a write is allowed and a different value has a different checksum and a
    record that can be read. -/
def Replicable (syncCfg : SyncConfig) (targetID : String) (env : Env) (w : World)
    (secretName : String) : Prop :=
  ∃ s, w.vaults syncCfg.source secretName = some s ∧
    (w.vaults targetID secretName = some s ∨ (0 < syncCfg.attempts ∧
      ∀ t, w.vaults targetID secretName = some t →
        hashString s ≠ hashString t ∧ (env.get 2).Works))

section Complete

variable {e : Engine} {syncCfg : SyncConfig} {targetID secretName : String}

/-- A write that does not come about was never tried. -/
theorem attempts_eq_zero {env : Env} (hwrite : (env.get 3).Works)
    (h : firstWorking syncCfg.attempts (env.drop 3) = none) : syncCfg.attempts = 0 := by
  by_contra hpos
  exact firstWorking_eq_none.mp h 0 (Nat.pos_of_ne_zero hpos) hwrite

theorem replicated_congr {source target : String} {w w' : World} (h : w'.vaults = w.vaults) :
    Replicated source target w' secretName ↔ Replicated source target w secretName := by
  rw [Replicated, Replicated, h]

/-- Of two values, it takes that they are equal. -/
theorem replicated_iff {source target : String} {w : World} {s t : Bytes}
    (hs : w.vaults source secretName = some s) (ht : w.vaults target secretName = some t) :
    Replicated source target w secretName ↔ s = t := by
  rw [Replicated, hs, ht]
  constructor
  · rintro ⟨x, hx, hx'⟩
    rw [Option.some.inj hx, Option.some.inj hx']
  · rintro rfl
    exact ⟨s, rfl, rfl⟩

theorem replicable_iff {env : Env} {w : World} {s t : Bytes}
    (hs : w.vaults syncCfg.source secretName = some s) (ht : w.vaults targetID secretName = some t) :
    Replicable syncCfg targetID env w secretName ↔
      s = t ∨ 0 < syncCfg.attempts ∧ hashString s ≠ hashString t ∧ (env.get 2).Works := by
  rw [Replicable, hs, ht]
  constructor
  · rintro ⟨s', hs', heq | ⟨hpos, hall⟩⟩
    · exact .inl (by rw [Option.some.inj hs', Option.some.inj heq])
    · obtain rfl := Option.some.inj hs'
      exact .inr ⟨hpos, hall t rfl⟩
  · rintro (rfl | ⟨hpos, hselect⟩)
    · exact ⟨s, rfl, .inl rfl⟩
    · refine ⟨s, rfl, .inr ⟨hpos, fun t' ht' => ?_⟩⟩
      rwa [← Option.some.inj ht']

theorem replicable_none {env : Env} {w : World} {s : Bytes}
    (hs : w.vaults syncCfg.source secretName = some s) (ht : w.vaults targetID secretName = none) :
    Replicable syncCfg targetID env w secretName ↔ 0 < syncCfg.attempts := by
  rw [Replicable, hs, ht]
  constructor
  · rintro ⟨_, -, hnone | ⟨hpos, -⟩⟩
    · cases hnone
    · exact hpos
  · intro hpos
    exact ⟨s, rfl, .inr ⟨hpos, fun t ht' => by cases ht'⟩⟩

theorem syncOnce_replicates_iff (hnone : syncCfg.transforms = [])
    (hne : syncCfg.source ≠ targetID) (hreg : targetID ∈ e.backends) {env : Env} {w : World}
    {s : Bytes} (hs : w.vaults syncCfg.source secretName = some s)
    (hwork : VaultsWork targetID secretName env w) :
    Replicated syncCfg.source targetID (syncOnce e syncCfg targetID secretName env w).2 secretName ↔
      Replicable syncCfg targetID env w secretName := by
  have hrun := run_syncOnce e syncCfg targetID secretName env w
  generalize (syncOnce e syncCfg targetID secretName env w).1 = res at hrun
  generalize (syncOnce e syncCfg targetID secretName env w).2 = w' at hrun
  cases hrun with
  | unread _ hno => exact absurd ⟨hwork.source, s, hs⟩ hno
  | handedOver _ _ hno huni =>
    have ht : w.vaults targetID secretName = none := by
      by_contra hsome
      exact hno ⟨hwork.target, Option.ne_none_iff_exists'.mp hsome⟩
    rw [replicable_none hs ht]
    have hsrc := huni.vaults_of_ne (v := syncCfg.source) (n := secretName) (.inl hne)
    cases huni with
    | rejected _ h => exact absurd ⟨hreg, hwork.again ht, hs, by rw [hnone]; rfl⟩ (h s s)
    | exhausted _ hfail hnote =>
      have hzero := attempts_eq_zero hwork.write hfail
      rw [replicated_congr hnote.vaults]
      refine iff_of_false ?_ (by omega)
      rintro ⟨x, -, hx⟩
      rw [ht] at hx
      cases hx
    | delivered hready hset hnote =>
      have hdone := UnidirectionalRun.vaults_of_ok (.delivered hready hset hnote) rfl hnone hs
      exact iff_of_true ⟨s, hsrc.trans hs, hdone⟩ (Nat.zero_lt_of_lt (firstWorking_works hset).1)
  | inSync hread heq hnote =>
    obtain rfl := Option.some.inj (hs.symm.trans hread.source)
    rw [replicated_congr hnote.vaults, replicated_iff hs hread.target, replicable_iff hs hread.target]
    exact ⟨.inl, Or.rec id fun h => absurd heq h.2.1⟩
  | unselected _ hread hdiff hselect =>
    obtain rfl := Option.some.inj (hs.symm.trans hread.source)
    rw [replicated_iff hs hread.target, replicable_iff hs hread.target]
    exact ⟨.inl, Or.rec id fun h => absurd h.2.2 hselect⟩
  | directed hread hdiff hselect hdir =>
    obtain rfl := Option.some.inj (hs.symm.trans hread.source)
    rw [replicable_iff hs hread.target]
    cases hdir with
    | failed hfail hnote =>
      have hzero := attempts_eq_zero hwork.write hfail
      rw [replicated_congr hnote.vaults, replicated_iff hs hread.target]
      exact ⟨.inl, Or.rec id fun h => absurd h.1 (by omega)⟩
    | copied hset hnote =>
      obtain ⟨hsrc, htgt⟩ := DirectionRun.copies hne hread (.copied hset hnote) rfl
      have hpos := Nat.zero_lt_of_lt (firstWorking_works hset).1
      exact iff_of_true ⟨_, hsrc, htgt⟩ (.inr ⟨hpos, hdiff, hselect⟩)

/-- After one run of `ExecuteSync` on working vaults, every name that passes the filter and was in
    one of the vaults is in both with one value, exactly if each of these names could be
    replicated; in particular the source must have all of them. -/
theorem replication_complete_iff (hnone : syncCfg.transforms = [])
    (hne : syncCfg.source ≠ targetID) (htype : syncCfg.syncType = "bidirectional")
    (htargets : syncCfg.targets = [targetID]) (hsource : syncCfg.source ∈ e.backends)
    (htarget : targetID ∈ e.backends) {a : RunAnswers} (hlist : a.listing.Works)
    (hrelist : a.relisting.Works) {env : String × String → Env} {w w' : World}
    (hnames : ∀ n, n ∈ a.relisting.names ↔ w.vaults syncCfg.source n ≠ none)
    (hnodup : a.relisting.names.Nodup) (hwork : ∀ n, VaultsWork targetID n (env (n, targetID)) w)
    {res : Except GoError Unit} (hrun : ExecuteSync e syncCfg a env w res w') :
    (∀ n, syncCfg.filter.Passes n → w.vaults syncCfg.source n ≠ none ∨ w.vaults targetID n ≠ none →
      Replicated syncCfg.source targetID w' n) ↔
    (∀ n, syncCfg.filter.Passes n → w.vaults syncCfg.source n ≠ none ∨ w.vaults targetID n ≠ none →
      Replicable syncCfg targetID (env (n, targetID)) w n) := by
  refine forall_congr' fun n => forall_congr' fun hpass => forall_congr' fun _ => ?_
  cases hrun with
  | noSource h => exact absurd hsource h
  | unlisted _ hfault => exact absurd (hlist.symm.trans hfault) (by simp)
  | unidirectional _ _ htype' => exact absurd (htype.symm.trans htype') (by decide)
  | otherType _ _ htype' => exact absurd htype htype'.2
  | noTarget _ _ _ hfirst hno =>
    rw [htargets] at hfirst
    obtain rfl := Option.some.inj hfirst
    exact absurd htarget hno
  | bidirectional _ _ _ hfirst _ hpool =>
    rw [htargets] at hfirst
    obtain rfl := Option.some.inj hfirst
    have hconf := bidirectional_confined e syncCfg targetID hnodup
    cases hpool with
    | unlisted h => exact absurd hrelist h
    | @returned u _ hs hr =>
      simp only [Replicated, recordSyncRun_vaults]
      by_cases hmem : n ∈ a.relisting.names
      · -- the goroutine of `n` leaves what one call alone leaves
        have halone := hconf.as_alone RowView.content hs hr (mem_filterSecrets.mpr ⟨hmem, hpass⟩)
        obtain ⟨s, hstored⟩ := Option.ne_none_iff_exists'.mp ((hnames n).mp hmem)
        rw [halone.cells syncCfg.source n (.inl ⟨.inl rfl, rfl⟩),
          halone.cells targetID n (.inl ⟨.inr rfl, rfl⟩)]
        exact syncOnce_replicates_iff hnone hne htarget hstored (hwork n)
      · have hsrc : w.vaults syncCfg.source n = none := by
          by_contra hsome
          exact hmem ((hnames n).mpr hsome)
        have hkept : u.shared.vaults syncCfg.source n = w.vaults syncCfg.source n := by
          refine (hconf.invariant hs (I := fun x => x.vaults syncCfg.source n =
            w.vaults syncCfg.source n) ?_ rfl fun n => env (n, targetID)).1
          intro j hj op env' x hop hx
          refine (frame_cell hop ?_ env' x).trans hx
          rintro ⟨-, rfl⟩
          exact hmem (mem_filterSecrets.mp hj).1
        refine iff_of_false ?_ ?_
        · rintro ⟨x, hx, -⟩
          rw [hkept, hsrc] at hx
          cases hx
        · rintro ⟨s, hs', -⟩
          rw [hsrc] at hs'
          cases hs'

/-- One secret that only the source has. -/
theorem replication_complete_iff_pair : ∃ w',
    ExecuteSync pairEngine pairSync { relisting := { names := ["k"] } } (fun _ => noFaults)
      (pairWorld (some (utf8 "v")) none) (.ok ()) w' ∧
    ((∀ n, pairSync.filter.Passes n → (pairWorld (some (utf8 "v")) none).vaults "a" n ≠ none ∨
        (pairWorld (some (utf8 "v")) none).vaults "b" n ≠ none → Replicated "a" "b" w' n) ↔
      ∀ n, pairSync.filter.Passes n → (pairWorld (some (utf8 "v")) none).vaults "a" n ≠ none ∨
        (pairWorld (some (utf8 "v")) none).vaults "b" n ≠ none →
        Replicable pairSync "b" noFaults (pairWorld (some (utf8 "v")) none) n) := by
  obtain ⟨s, hs, hr⟩ := Pool.exists_of_follow (workerPool (filterSecrets ["k"] pairSync.filter)
      (fun n => syncSecretBidirectional pairEngine pairSync "b" n "a" "b") 1 fun _ => noFaults)
    (pairWorld (some (utf8 "v")) none)
    ([.launch, .spawnCloser] ++ Pool.serve ⟨0, by decide +kernel⟩ 9 ++ [.close, .receive, .finish])
    (fun s => s.returned) (b := true) (by decide +kernel)
  have hrun : ExecuteSync pairEngine pairSync { relisting := { names := ["k"] } }
      (fun _ => noFaults) (pairWorld (some (utf8 "v")) none) (.ok ())
      (recordSyncRun { relisting := { names := ["k"] } } "s" (runStatus ⟨s.success, s.failure⟩)
        ⟨s.success, s.failure⟩ "" s.shared) :=
    .bidirectional (by decide) rfl rfl rfl (by decide) (.returned rfl hs hr)
  have hnames : ∀ n, n ∈ ["k"] ↔ (pairWorld (some (utf8 "v")) none).vaults "a" n ≠ none := by
    intro n
    simp [pairWorld]
  exact ⟨_, hrun, replication_complete_iff rfl (by decide) rfl rfl (by decide) (by decide) rfl rfl
    hnames (by decide) (fun n => ⟨rfl, rfl, fun _ => rfl, rfl⟩) hrun⟩

/-- A secret that only the target has stays there alone. -/
theorem target_only_secret_not_replicated : ∃ w',
    ExecuteSync pairEngine pairSync {} (fun _ => noFaults) (pairWorld none (some (utf8 "w")))
      (.ok ()) w' ∧
    pairSync.filter.Passes "k" ∧ w'.vaults "b" "k" = some (utf8 "w") ∧ w'.vaults "a" "k" = none := by
  obtain ⟨s, hs, hr⟩ := Pool.exists_of_follow (workerPool (filterSecrets [] pairSync.filter)
      (fun n => syncSecretBidirectional pairEngine pairSync "b" n "a" "b") 1 fun _ => noFaults)
    (pairWorld none (some (utf8 "w"))) [.spawnCloser, .close, .finish]
    (fun s => (s.returned, s.shared.vaults "a" "k", s.shared.vaults "b" "k"))
    (b := (true, none, some (utf8 "w"))) (by decide +kernel)
  simp only [Prod.mk.injEq] at hr
  refine ⟨_, .bidirectional (by decide) rfl rfl rfl (by decide) (.returned rfl hs hr.1),
    by decide, ?_, ?_⟩
  · rw [recordSyncRun_vaults]; exact hr.2.2
  · rw [recordSyncRun_vaults]; exact hr.2.1

end Complete

end VaultsSyncer
