import VaultsSyncer.Config.Loader
import VaultsSyncer.Sync.Contracts

/-! The source of a unidirectional sync. The validator lets it be one of the targets, and then a run
    writes what the transforms make of each secret back over it, once more in every run
    (`source_of_truth_iff`). -/

namespace VaultsSyncer

open GoStd Schemes Schemes.Prog

/-- One run of the sync leads from one world to the other. -/
def RunStep (e : Engine) (syncCfg : SyncConfig) (w w' : World) : Prop :=
  ∃ a env r, ExecuteSync e syncCfg a env w r w'

/-- However often the sync is run, no value in the source changes, at any moment of any of the runs. -/
def SourceKept (e : Engine) (syncCfg : SyncConfig) : Prop :=
  ∀ w w', Relation.ReflTransGen (RunStep e syncCfg) w w' →
    w'.vaults syncCfg.source = w.vaults syncCfg.source ∧
    ∀ (a : RunAnswers) (env : String × String → Env) (n : ℕ)
      (pool : Pool.Setup Call Call.Ans Env World n) (pair : Fin n → String × String)
      (s : Pool.State Call Call.Ans Env World n), Goroutines e syncCfg a env pool pair →
      Pool.Reaches pool w' s → s.shared.vaults syncCfg.source = w.vaults syncCfg.source

/-- A copy of the source onto itself does nothing: no name passes the filter, no write is tried, or the
    transforms keep every value that they apply to. -/
def Harmless (syncCfg : SyncConfig) : Prop :=
  (∀ n, ¬syncCfg.filter.Passes n) ∨ syncCfg.attempts = 0 ∨
    ∀ v x, applyTransforms v syncCfg.transforms = .ok x → x = v

/-! ### Harmless syncs -/

section Kept

variable (e : Engine) (syncCfg : SyncConfig)

/-- Nobody changes the source, and what an attempt writes to it is there already. -/
def sourceContract : Contract Call Env World where
  rely := fun s s' => s'.vaults syncCfg.source = s.vaults syncCfg.source
  given := fun _ _ _ => True
  call := fun op e s => ∀ n x, op = .setSecret syncCfg.source n x → e.head.Works →
    s.vaults syncCfg.source n = some x
  refl := fun _ => rfl
  trans := fun h h' => h'.trans h

variable {e syncCfg} {a : RunAnswers} {env : String × String → Env} {n : ℕ}
  {pool : Pool.Setup Call Call.Ans Env World n} {pair : Fin n → String × String} {w : World}

theorem source_quiet (op : Call) (e : Env) (s : World) (h : op.Quiet) :
    (sourceContract syncCfg).call op e s := by
  rintro n x rfl
  exact h.elim

/-- A call within the contract leaves the source alone. -/
theorem sourceContract_framed {op : Call} {e' : Env} {s : World}
    (h : (sourceContract syncCfg).call op e' s) :
    (handle op (e', s)).2.2.vaults syncCfg.source = s.vaults syncCfg.source := by
  by_cases hset : ∃ v m x, op = .setSecret v m x
  · obtain ⟨v, m, x, rfl⟩ := hset
    by_cases hw : e'.head.Works
    · simp only [handle, Answer.commit_of_works hw]
      funext n
      by_cases hcell : syncCfg.source = v ∧ n = m
      · obtain ⟨rfl, rfl⟩ := hcell
        rw [World.setVault_self, h n x rfl hw]
      · exact s.setVault_of_ne x (not_and_or.mp hcell)
    · obtain ⟨err, herr⟩ := Answer.commit_of_fault hw (.ok (), s.setVault v m x) s
      simp only [handle, herr]
  · rw [handle_vaults fun v m x h => hset ⟨v, m, x, h⟩]

theorem source_attempt {job : String × String} (htype : syncCfg.syncType = "unidirectional")
    (hpass : syncCfg.filter.Passes job.1)
    (hharmless : job.2 = syncCfg.source → Harmless syncCfg) (env : Env) (s : World) :
    (worker (attempt e syncCfg job)).Keeps handle (sourceContract syncCfg) (fun _ _ _ => True) env
      s := by
  have hne : ¬syncCfg.syncType = "bidirectional" := by rw [htype]; decide
  refine Keeps.bind ?_
  rw [attempt, if_neg hne]
  refine keeps_iff.mpr fun s' _ => ?_
  refine (keepsNow_unidirectional (Q := fun _ _ _ => True) source_quiet
    (fun _ _ _ => keeps_ret fun _ _ => trivial) fun v x hready => ?_).mono
    fun _ _ _ _ => keeps_ret fun _ _ => trivial
  have hrecord (o : ℤ → SyncObject) (res : Except GoError Unit) (e' : Env) (u : World) :
      (record o res).Keeps handle (sourceContract syncCfg) (fun _ _ _ => True) e' u :=
    keeps_record_free source_quiet (fun _ _ _ _ _ _ h => by cases h) fun _ _ _ _ _ _ h => by cases h
  refine keeps_copyAndRecord source_quiet (fun e' s'' hworks hs'' => ?_)
    (fun _ _ _ _ _ _ => hrecord _ _ _ _) fun _ _ _ _ => hrecord _ _ _ _
  rintro n y hset hw
  obtain ⟨hsource, rfl, rfl⟩ := Call.setSecret.inj hset
  have hstored : s''.vaults syncCfg.source job.1 = some v := (congrFun hs'' job.1).trans hready.stored
  rcases hharmless hsource with hno | hzero | hid
  · exact absurd hpass (hno job.1)
  · have hnone : firstWorking syncCfg.attempts (env.drop 1) = none := by rw [hzero]; rfl
    exact absurd hnone (hworks hw)
  · rw [hstored, hid v x hready.transformed]

theorem Goroutines.source_eq (h : Goroutines e syncCfg a env pool pair)
    (htype : syncCfg.syncType = "unidirectional")
    (hharmless : syncCfg.source ∈ syncCfg.targets → Harmless syncCfg)
    {s : Pool.State Call Call.Ans Env World n} (hs : Pool.Reaches pool w s) :
    s.shared.vaults syncCfg.source = w.vaults syncCfg.source := by
  have hframes : Pool.Frames pool w (fun _ _ => True) (fun _ => sourceContract syncCfg)
      (fun _ _ => True) (fun _ _ _ => True) :=
    { init := fun _ => trivial
      starts := fun s _ _ _ i _ _ _ => by
        rw [h.handler, h.task]
        obtain ⟨hpass, htarget⟩ := h.pair_mem i
        exact (source_attempt htype hpass (fun heq => hharmless (heq ▸ htarget)) _ _).now
      given := fun _ _ _ _ _ _ _ _ _ _ => trivial
      frame := fun s _ _ _ i op k e' _ _ hcall j _ => by
        rw [h.handler]
        exact ⟨id, sourceContract_framed hcall, fun _ => id⟩ }
  refine hs.at_calls (I := fun u => u.vaults syncCfg.source = w.vaults syncCfg.source) rfl ?_
  intro u hu i op k e' hp hI
  rw [h.handler]
  refine (sourceContract_framed ?_).trans hI
  exact hframes.at_call (hu.along fun _ _ _ => trivial) trivial i op k e' rfl hp

theorem sourceKept_of_harmless (htype : syncCfg.syncType = "unidirectional")
    (hharmless : syncCfg.source ∈ syncCfg.targets → Harmless syncCfg) : SourceKept e syncCfg := by
  have hstep : ∀ w w', RunStep e syncCfg w w' →
      w'.vaults syncCfg.source = w.vaults syncCfg.source := by
    rintro w w' ⟨a, env, r, hrun⟩
    rcases hrun.goroutines with hidle | ⟨n, pool, pair, s, hg, hs, -, rfl⟩
    · rw [hidle.1]
    · rw [recordSyncRun_vaults]
      exact hg.source_eq htype hharmless hs
  intro w w' hruns
  have hkept : w'.vaults syncCfg.source = w.vaults syncCfg.source := by
    induction hruns with
    | refl => rfl
    | tail _ hlast ih => exact (hstep _ _ hlast).trans ih
  exact ⟨hkept, fun a env n pool pair s hg hs => (hg.source_eq htype hharmless hs).trans hkept⟩

end Kept

/-! ### Harmful syncs -/

/-- If a write is tried at all, a copy begins with it. -/
theorem copyAndRecord_call {policy : RetryPolicy} (h : attempts policy ≠ 0) (vault name : String)
    (value : Bytes) (failed : GoError → ℤ → SyncObject) (done : ℤ → SyncObject) :
    ∃ k, copyAndRecord policy vault name value failed done =
      .call (.setSecret vault name value) k := by
  obtain ⟨m, hm⟩ := Nat.exists_eq_succ_of_ne_zero h
  rw [copyAndRecord, withRetry, hm]
  exact ⟨_, rfl⟩

/-- A goroutine that is to copy a secret onto itself reads it and writes what the transforms make of
    it. -/
theorem SourceKept.harmless {e : Engine} {syncCfg : SyncConfig} (h : SourceKept e syncCfg)
    (htype : syncCfg.syncType = "unidirectional") (hsource : syncCfg.source ∈ e.backends)
    (hself : syncCfg.source ∈ syncCfg.targets) : Harmless syncCfg := by
  by_cases hpass : ∀ n, ¬syncCfg.filter.Passes n
  · exact .inl hpass
  by_cases hzero : syncCfg.attempts = 0
  · exact .inr (.inl hzero)
  obtain ⟨n, hpass⟩ := not_forall_not.mp hpass
  refine .inr (.inr fun v x hx => ?_)
  -- every vault holds `v` under every name, and the source lists `n`
  let w : World := { vaults := fun _ _ => some v }
  let pool := workerPool (unidirectionalJobs syncCfg [n])
    (fun job => syncSecretUnidirectional e syncCfg job.2 job.1 syncCfg.source) syncCfg.workerCount
    fun _ => noFaults
  have hg : Goroutines e syncCfg { relisting := { names := [n] } } (fun _ => noFaults) pool
      fun i => (unidirectionalJobs syncCfg [n])[i] := .unidirectional hsource rfl rfl htype
  have hjob : (n, syncCfg.source) ∈ unidirectionalJobs syncCfg [n] :=
    List.pair_mem_product.mpr ⟨mem_filterSecrets.mpr ⟨List.mem_singleton_self n, hpass⟩, hself⟩
  obtain ⟨i, hi, hpair⟩ := List.getElem_of_mem hjob
  obtain ⟨k, hk⟩ := copyAndRecord_call hzero syncCfg.source n x
    (fun err => syncCfg.outcome syncCfg.source n
      ⟨"failed", hashString v, "", "source_to_target"⟩ err.text)
    (syncCfg.outcome syncCfg.source n
      ⟨"success", hashString v, hashString v, "source_to_target"⟩ "")
  have htask : pool.task ⟨i, hi⟩ = .call (.getSecret syncCfg.source n) fun r =>
      worker (copyOneWay syncCfg syncCfg.source n r) := by
    change worker (syncSecretUnidirectional e syncCfg (unidirectionalJobs syncCfg [n])[i].2
      (unidirectionalJobs syncCfg [n])[i].1 syncCfg.source) = _
    rw [hpair, syncSecretUnidirectional_eq, if_neg (not_not.mpr hsource)]
    rfl
  have hcopy : worker (copyOneWay syncCfg syncCfg.source n (.ok ⟨n, v⟩)) =
      .call (.setSecret syncCfg.source n x) fun r => worker (k r) := by
    simp only [copyOneWay, hx]
    rw [copyValue, hk]
    rfl
  obtain ⟨s₁, hs₁, hp₁, hshared₁⟩ := Pool.exists_running hg.workers w ⟨i, hi⟩
  rw [htask] at hp₁
  obtain ⟨s₂, hs₂, hp₂, hshared₂⟩ := hs₁.exec hp₁
  rw [hshared₁] at hp₂ hshared₂
  have hp₂ : s₂.phase ⟨i, hi⟩ = .running (worker (copyOneWay syncCfg syncCfg.source n (.ok ⟨n, v⟩)))
      noFaults := hp₂
  rw [hcopy] at hp₂
  obtain ⟨s₃, hs₃, -, hshared₃⟩ := hs₂.exec hp₂
  have hkept := (h w w .refl).2 _ _ _ _ _ s₃ hg hs₃
  have hcell := congrFun hkept n
  rw [hshared₃] at hcell
  have hset : (s₂.shared.setVault syncCfg.source n x).vaults syncCfg.source n = some v := hcell
  rw [World.setVault_self] at hset
  exact Option.some.inj hset

/-- Of a unidirectional sync in a configuration that the validator accepts, the source is kept exactly
    if it is no target, or the copy onto itself is harmless. -/
theorem source_of_truth_iff {cfg : Config} (hvalid : cfg.validate = .ok ()) {syncCfg : SyncConfig}
    (hsync : syncCfg ∈ cfg.syncs) (htype : syncCfg.syncType = "unidirectional") {e : Engine}
    (havailable : ∀ v ∈ cfg.vaults, v.id ∈ e.backends) :
    SourceKept e syncCfg ↔ (syncCfg.source ∈ syncCfg.targets → Harmless syncCfg) := by
  refine ⟨fun h hself => h.harmless htype ?_ hself, sourceKept_of_harmless htype⟩
  obtain ⟨v, hv, hid⟩ := source_of_validate hvalid hsync
  exact hid ▸ havailable v hv

/-- Vault `a` is copied to itself and to vault `b`. -/
def selfSync (transforms : List Transform) : SyncConfig :=
  { id := "s", source := "a", targets := ["a", "b"], syncType := "unidirectional"
    transforms := transforms }

def selfConfig (transforms : List Transform) : Config where
  vaults := ["a", "b"].map fun id =>
    { id := id, endpoint := "https://vault", method := "PUT", auth := some { method := "bearer" }
      fieldNames := ⟨"name", "value"⟩ }
  syncs := [selfSync transforms]

theorem selfConfig_valid (transforms : List Transform) : (selfConfig transforms).validate = .ok () := by
  rfl

theorem source_of_truth_iff_self : SourceKept ⟨["a", "b"]⟩ (selfSync []) ↔
    ("a" ∈ ["a", "b"] → Harmless (selfSync [])) :=
  source_of_truth_iff (selfConfig_valid []) (List.mem_singleton_self _) rfl (by decide)

/-- With a transform, the run encodes the values of its source. -/
theorem source_overwritten : (selfConfig [{ field := "value", type := "base64_encode" }]).validate =
      .ok () ∧
    ¬SourceKept ⟨["a", "b"]⟩ (selfSync [{ field := "value", type := "base64_encode" }]) := by
  refine ⟨selfConfig_valid _, fun h => ?_⟩
  rcases h.harmless rfl (by decide) (by decide) with hno | hzero | hid
  · exact hno "k" (by decide)
  · exact absurd hzero (by decide)
  · exact absurd (hid (utf8 "v") _ rfl) (by decide +kernel)

end VaultsSyncer
