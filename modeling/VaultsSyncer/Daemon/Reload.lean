import VaultsSyncer.Daemon.Scheduling
import VaultsSyncer.Schemes.ReloadRuns
import VaultsSyncer.Storage.ConfigWrites

/-! The daemon while it reloads its configuration (`main.go`, `api/handler.go`): any number of writes
    to the config store, each followed by a `reloadConfig` in a goroutine of its own, scheduled
    firings of the runners, and requests that read the runner and the configuration. -/

namespace VaultsSyncer

open GoStd Schemes Schemes.Prog

variable {ι : Type}

/-- What `NewEngine` leaves of the configuration that it builds the backends from. -/
def Config.afterNewEngine (cfg : Config) : Config :=
  { cfg with vaults := cfg.vaults.map VaultConfig.afterNewBackend }

/-- The daemon on a store, with the configuration that it has loaded when it started. Every configuration
    goes through `NewEngine` before a runner or the API handler gets it. `main` starts the first runner
    only if there is something to run. -/
def reloadSetup (s : ConfigStore) (lib : CronLibrary) (writes : ι → ConfigWrite)
    (env : ι → Surroundings) (initialCfg : Config) :
    Reload.Setup DbCall DbCall.Ans Surroundings Database Config String ι where
  handler := serve
  write := fun i => do return (← (writes i).program s).isOk
  env := env
  load := do return (← s.loadConfig).toOption.map Config.afterNewEngine
  starts := fun cfg => (Runner.new.start lib cfg).1.isOk
  scheduled := fun cfg syncID => (scheduled cfg).any fun sc => sc.id = syncID
  initial := initialCfg.afterNewEngine
  up := !initialCfg.syncs.isEmpty

/-- The database holds the configuration: a load returns it, as long as the database works. -/
def HeldBy (s : ConfigStore) (db : Database) (cfg : Config) : Prop :=
  ∀ env : Surroundings, env.Works → (s.loadConfig.run serve (env, db)).1 = .ok cfg

variable {s : ConfigStore} {lib : CronLibrary} {writes : ι → ConfigWrite} {env : ι → Surroundings}
  {initialCfg : Config}

/-- The calls of a load do not change the database. -/
theorem allCalls_reload : (reloadSetup s lib writes env initialCfg).load.AllCalls
    (DbCall.Only fun r => r.Reads = true) := by
  refine AllCalls.bind (allCalls_loadConfig fun t => rfl) ?_
  rintro (err | cfg) <;> trivial

theorem serve_reads (op : DbCall) (e : Surroundings) (db : Database)
    (h : op.Only fun r => r.Reads = true) : (serve op (e, db)).2.2 = db :=
  serve_preserves (I := fun d => d = db) h (fun _ d hr hd => (Stmt.exec_reads hr d).trans hd) e rfl

/-- A reload gets what a load returns, as the engine leaves it. -/
theorem loads_of_reload {env₀ : Surroundings} {db : Database} {built : Config}
    (h : ((reloadSetup s lib writes env initialCfg).load.run serve (env₀, db)).1 = some built) :
    ∃ cfg, s.Loads db cfg ∧ cfg.afterNewEngine = built := by
  simp only [reloadSetup, run_bind] at h
  rcases hload : s.loadConfig.run serve (env₀, db) with ⟨err | cfg, rest⟩
  · rw [hload] at h
    cases h
  · rw [hload] at h
    exact ⟨cfg, ⟨env₀, by rw [hload]⟩, Option.some.inj h⟩

theorem reload_of_loads {db : Database} {cfg : Config} (h : s.Loads db cfg) : ∃ e,
    ((reloadSetup s lib writes env initialCfg).load.run serve (e, db)).1 = some cfg.afterNewEngine := by
  obtain ⟨e, h⟩ := h
  refine ⟨e, ?_⟩
  simp only [reloadSetup, run_bind]
  generalize s.loadConfig.run serve (e, db) = x at h ⊢
  obtain ⟨err | cfg', rest⟩ := x
  · cases h
  · exact congrArg (some ∘ Config.afterNewEngine) (Except.ok.inj h)

variable [DecidableEq ι]

/-! ### The last reload -/

/-- Once every write and its reload have gone through, the API handler and the one runner that runs have
    the configuration that the database holds, as the engine leaves it. -/
theorem stored_config_runs (s : ConfigStore) (lib : CronLibrary) (writes : ι → ConfigWrite)
    (env : ι → Surroundings) {db₀ : Database} {initialCfg : Config} (hinitial : s.Loads db₀ initialCfg)
    (as : List (Reload.Action ι String)) :
    let last := Reload.after (reloadSetup s lib writes env initialCfg) db₀ as
    (∀ i, last.phase i = .finished) → Nonempty ι ∨ initialCfg.syncs ≠ [] →
      ∃ cfg r, HeldBy s last.shared cfg ∧ last.config last.handlerConfig = some cfg.afterNewEngine ∧
        last.handlerRunner = r ∧ last.config r = some cfg.afterNewEngine ∧
        ∀ r', last.running r' = true ↔ r' = r := by
  intro last hall hsome
  have hinit := @reload_of_loads _ s lib writes env initialCfg _ _ hinitial
  obtain ⟨hconfig, hrunner, ⟨built, e, hbuilt, hload⟩, hruns⟩ :=
    Reload.after_all_finished serve_reads allCalls_reload hinit as hall
  obtain ⟨cfg, hloads, rfl⟩ := loads_of_reload hload
  have hfresh := Reload.fresh_after serve_reads allCalls_reload hinit as
  refine ⟨cfg, _, fun env' henv' => hloads.of_works henv', by rw [hconfig, hbuilt], hrunner, hbuilt,
    fun r' => (hruns r').trans ⟨fun h => h.1, fun h => ⟨h, fun hnone => ?_⟩⟩⟩
  rcases hsome with ⟨⟨i⟩⟩ | hsyncs
  · exact absurd (h.symm.trans hnone) (hfresh.shown i (hall i))
  · simpa [reloadSetup] using hsyncs

/-- No write is lost. From the end of the first reload on some runner runs; and at the end it is the one
    runner, and has the stored configuration. -/
theorem reloads_end_in_stored_config (s : ConfigStore) (lib : CronLibrary) (writes : ι → ConfigWrite)
    (env : ι → Surroundings) {db₀ : Database} {initialCfg : Config} (hinitial : s.Loads db₀ initialCfg)
    (as : List (Reload.Action ι String)) :
    let last := Reload.after (reloadSetup s lib writes env initialCfg) db₀ as
    ((∃ i, last.phase i = .finished) → ∃ r, last.running r = true) ∧
    ((∀ i, last.phase i = .finished) → Nonempty ι ∨ initialCfg.syncs ≠ [] →
      ∃ cfg r, HeldBy s last.shared cfg ∧ last.config last.handlerConfig = some cfg.afterNewEngine ∧
        last.handlerRunner = r ∧ last.config r = some cfg.afterNewEngine ∧
        ∀ r', last.running r' = true ↔ r' = r) := by
  have hinit := @reload_of_loads _ s lib writes env initialCfg _ _ hinitial
  refine ⟨?_, stored_config_runs s lib writes env hinitial as⟩
  rintro ⟨i, hi⟩
  exact Reload.after_some_finished serve_reads allCalls_reload hinit as hi

/-- A store that holds this sync. -/
def storedSync : Database :=
  (Stmt.exec (.insertConfig .syncs "s" (SyncConfig.codec.marshal fiveMinuteSync) 0) .empty).2

theorem reread_fiveMinuteSync : fiveMinuteSync.reread = fiveMinuteSync := by
  have hzero : Codec.float.norm 0 = 0 := by decide +kernel
  exact congrArg (fun m => { fiveMinuteSync with retryPolicy := { multiplier := m } }) hzero

theorem read_fiveMinuteSync (pre : String) :
    ConfigStore.readSync {} pre (SyncConfig.codec.marshal fiveMinuteSync) = .ok fiveMinuteSync := by
  rw [ConfigStore.readSync, SyncConfig.unmarshal_marshal, reread_fiveMinuteSync]

/-- The rows of a database that holds just this sync, as they are read. -/
theorem rows_fiveMinutes {db : Database} (hvaults : db.texts .vaults = [])
    (hsyncs : db.texts .syncs = [SyncConfig.codec.marshal fiveMinuteSync]) :
    (db.texts .vaults).mapM (ConfigStore.readVault {} "storage: ListVaults unmarshal: ") = .ok [] ∧
      (db.texts .syncs).mapM (ConfigStore.readSync {} "storage: ListSyncs unmarshal: ") =
        .ok [fiveMinuteSync] := by
  rw [hvaults, hsyncs, List.mapM_cons, read_fiveMinuteSync]
  exact ⟨rfl, rfl⟩

omit [DecidableEq ι] in
/-- A reload from a database whose rows are read: what it gets, with two calls. -/
theorem load_rows {e : Surroundings} (he : e.Works) {db : Database} {vaults : List VaultConfig}
    {syncs : List SyncConfig}
    (hvaults : (db.texts .vaults).mapM (ConfigStore.readVault {} "storage: ListVaults unmarshal: ") =
      .ok vaults)
    (hsyncs : (db.texts .syncs).mapM (ConfigStore.readSync {} "storage: ListSyncs unmarshal: ") =
      .ok syncs) :
    let load := (reloadSetup {} lib writes env initialCfg).load
    (load.run serve (e, db)).1 = some (Config.afterNewEngine { vaults := vaults, syncs := syncs }) ∧
      (load.calls serve (e, db)).length = 2 := by
  have hrun := ConfigStore.run_loadConfig he hvaults hsyncs
  have hcalls : ((ConfigStore.loadConfig {}).calls serve (e, db)).length = 2 := by
    rw [Database.texts] at hvaults hsyncs
    rw [ConfigStore.loadConfig, calls_bind, ConfigStore.listVaults, calls_bind, run_bind, run_exec he]
    simp only [Stmt.exec, Except.mapError, pure_eq, run_ret, calls_ret, hvaults]
    rw [calls_bind, ConfigStore.listSyncs, calls_bind, run_bind, run_exec he.next]
    simp only [Stmt.exec, Except.mapError, pure_eq, run_ret, calls_ret, hsyncs]
    rfl
  simp only [reloadSetup, run_bind, calls_bind, hrun, pure_eq, run_ret, calls_ret, List.append_nil,
    hcalls, and_true]
  rfl

/-- So in a run, where the database stays as it is. -/
theorem reload_rows {st : Reload.State DbCall DbCall.Ans Surroundings Database Config String ι} {i : ι}
    {e : Surroundings}
    (hphase : st.phase i = .loading (reloadSetup {} lib writes env initialCfg).load e) (he : e.Works)
    {vaults : List VaultConfig} {syncs : List SyncConfig}
    (hvaults : (st.shared.texts .vaults).mapM
      (ConfigStore.readVault {} "storage: ListVaults unmarshal: ") = .ok vaults)
    (hsyncs : (st.shared.texts .syncs).mapM
      (ConfigStore.readSync {} "storage: ListSyncs unmarshal: ") = .ok syncs) :
    ∃ e', [Reload.Action.load i, .load i].foldl (Reload.next (reloadSetup {} lib writes env initialCfg)) st =
      st.move i (.loading (.ret (some (Config.afterNewEngine { vaults := vaults, syncs := syncs }))) e') := by
  obtain ⟨hrun, hcalls⟩ := @load_rows ι lib writes env initialCfg e he st.shared vaults syncs hvaults hsyncs
  have hreads : (reloadSetup {} lib writes env initialCfg).load.AllCalls
    (DbCall.Only fun r => r.Reads = true) := allCalls_reload
  have hsame := hreads.run_preserves (h := serve) (I := fun x => x.2 = st.shared)
    (fun op x hop hx => (serve_reads op x.1 x.2 hop).trans hx) (s := (e, st.shared)) rfl
  have hsteps := Reload.foldl_load (S := reloadSetup {} lib writes env initialCfg) hphase
  simp only [reloadSetup] at hrun hcalls hsame hsteps ⊢
  rw [hrun, hcalls, hsame] at hsteps
  exact ⟨_, hsteps⟩

/-- The daemon started with that sync, about to delete it. -/
abbrev deletingSync : Reload.Setup DbCall DbCall.Ans Surroundings Database Config String (Fin 1) :=
  reloadSetup {} fiveFieldCron (fun _ => .deleteSync "s") (fun _ => {}) fiveMinutes

theorem loads_storedSync : ConfigStore.Loads {} storedSync fiveMinutes := by
  obtain ⟨hnone, hread⟩ := @rows_fiveMinutes storedSync rfl rfl
  exact ⟨{}, ConfigStore.run_loadConfig Surroundings.works_default hnone hread⟩

/-- The sync is deleted, and the daemon reloads. -/
def oneReload : List (Reload.Action (Fin 1) String) :=
  [.write 0, .answer 0, .lock 0, .load 0, .load 0, .start 0, .stop 0, .swap 0, .setConfig 0,
    .setRunner 0, .unlock 0]

theorem reloads_end_in_stored_config_one :
    let last := Reload.after deletingSync storedSync oneReload
    (∀ i, last.phase i = .finished) ∧ ∃ cfg r, HeldBy {} last.shared cfg ∧
      last.config last.handlerConfig = some cfg.afterNewEngine ∧ last.handlerRunner = r ∧
      last.config r = some cfg.afterNewEngine ∧ ∀ r', last.running r' = true ↔ r' = r := by
  have hall : ∀ i, (Reload.after deletingSync storedSync oneReload).phase i = .finished := by
    intro i
    rw [← Reload.Phase.isFinished_iff]
    revert i
    decide +kernel
  exact ⟨hall, (reloads_end_in_stored_config {} fiveFieldCron _ _ loads_storedSync oneReload).2 hall
    (.inl ⟨0⟩)⟩

/-- A key/value vault whose get operation is overridden without saying how. -/
def overriddenVault : VaultConfig :=
  { id := "a", type := "vault", endpoint := "https://a", operations := some [("get", some {})] }

/-- The daemon on an empty store, about to save that vault. -/
abbrev savingVault : Reload.Setup DbCall DbCall.Ans Surroundings Database Config String (Fin 1) :=
  reloadSetup {} fiveFieldCron (fun _ => .saveVault overriddenVault) (fun _ => {}) {}

/-- The vault is saved with an update, which finds no row, and an insert. -/
def savedVault : List (Reload.Action (Fin 1) String) :=
  [.write 0, .write 0, .write 0, .write 0, .answer 0, .lock 0]

/-- What the daemon has then. -/
theorem after_savedVault :
    let st := Reload.after savingVault .empty savedVault
    (∃ e, st.phase 0 = .loading savingVault.load e ∧ e.Works) ∧
      st.shared.texts .vaults = [VaultConfig.codec.marshal overriddenVault] ∧
      st.shared.texts .syncs = [] :=
  ⟨⟨_, rfl, fun _ => rfl⟩, rfl, rfl⟩

/-- The daemon reloads. -/
def savedAndReloaded : List (Reload.Action (Fin 1) String) :=
  savedVault ++ ([.load 0, .load 0] ++
    [.start 0, .stop 0, .swap 0, .setConfig 0, .setRunner 0, .unlock 0])

/-- The methods of the get operations that the vaults of a configuration are overridden with. -/
def Config.getMethods (cfg : Config) : List (Option String) :=
  cfg.vaults.map fun v => (v.operationsOverride "get").map OperationConfig.method

/-- Without a write, and without a sync in the store, no runner is ever started. And where an override
    leaves something open, what the API handler has at the end is not what is stored. -/
theorem no_runner_and_filled_override :
    let first := Reload.after (reloadSetup {} fiveFieldCron (Fin.elim0 : Fin 0 → ConfigWrite)
      (fun _ => {}) {}) .empty []
    let last := Reload.after savingVault .empty savedAndReloaded
    ((∀ i, first.phase i = .finished) ∧ ¬∃ r, first.running r = true) ∧
      (∀ i, last.phase i = .finished) ∧
        ¬∃ cfg, HeldBy {} last.shared cfg ∧ last.config last.handlerConfig = some cfg := by
  intro first last
  obtain ⟨⟨e, hphase, he⟩, hvaults, hsyncs⟩ := after_savedVault
  set st := Reload.after savingVault .empty savedVault with hst
  have hread : (st.shared.texts .vaults).mapM
      (ConfigStore.readVault {} "storage: ListVaults unmarshal: ") = .ok [overriddenVault.reread] := by
    rw [hvaults, List.mapM_cons, ConfigStore.readVault, VaultConfig.unmarshal_marshal]
    rfl
  have hnone : (st.shared.texts .syncs).mapM
      (ConfigStore.readSync {} "storage: ListSyncs unmarshal: ") = .ok [] := by
    rw [hsyncs]
    rfl
  obtain ⟨e', hloaded⟩ := reload_rows hphase he hread hnone
  have hlast : last = [Reload.Action.start 0, .stop 0, .swap 0, .setConfig 0, .setRunner 0,
      .unlock 0].foldl (Reload.next savingVault) (st.move 0 (.loading (.ret (some
        (Config.afterNewEngine { vaults := [overriddenVault.reread], syncs := [] }))) e')) := by
    rw [← hloaded, ← List.foldl_append, hst, Reload.after, ← List.foldl_append]
    rfl
  obtain ⟨hfinished, hconfig, hshared⟩ := Reload.foldl_replace (S := savingVault)
    (Reload.State.move_self (s := st) 0 (.loading (.ret (some
        (Config.afterNewEngine { vaults := [overriddenVault.reread], syncs := [] }))) e')) rfl
  rw [← hlast] at hfinished hconfig hshared
  refine ⟨⟨fun i => i.elim0, ?_⟩, fun i => Subsingleton.elim i 0 ▸ hfinished, ?_⟩
  · rintro ⟨r, hr⟩
    simp [first, Reload.after, Reload.init, reloadSetup] at hr
  · rintro ⟨cfg, hheld, hhandler⟩
    have hstored := hheld {} Surroundings.works_default
    have hload := ConfigStore.run_loadConfig Surroundings.works_default hread hnone
    rw [hshared] at hstored
    obtain rfl := Except.ok.inj (hload.symm.trans hstored)
    -- the stored override says nothing of the method, the one that the handler has does
    have hmethods := congrArg (Option.map Config.getMethods) (hconfig.symm.trans hhandler)
    revert hmethods
    decide +kernel

/-! ### Pairs of a runner and a configuration -/

/-- Every pair that `getState` returns comes from one cycle, exactly if no request calls it between the
    `SetConfig` and the `SetRunner` of a reload. -/
theorem getState_pairs_match_iff (s : ConfigStore) (lib : CronLibrary) (writes : ι → ConfigWrite)
    (env : ι → Surroundings) (db₀ : Database) (initialCfg : Config)
    (as : List (Reload.Action ι String)) :
    let S := reloadSetup s lib writes env initialCfg
    Runs.Each (Reload.next S) (fun st a => a = .getState → st.getState.1 = st.getState.2)
        (Reload.init S db₀) as ↔
      Runs.Each (Reload.next S) (fun st a => a = .getState → ∀ i, st.phase i ≠ .configSet)
        (Reload.init S db₀) as :=
  Reload.each_matched_iff db₀ as

/-- A request between the two steps gets the first runner, which was built with the sync, together with
    the configuration without it. -/
theorem getState_between_the_sets :
    let st := Reload.after deletingSync storedSync (oneReload.take 9)
    ¬Runs.Each (Reload.next deletingSync) (fun st a => a = .getState →
        st.getState.1 = st.getState.2)
      (Reload.init deletingSync storedSync) (oneReload.take 9 ++ [.getState]) ∧
    ((st.config st.getState.1).map fun cfg => cfg.syncs.length) = some 1 ∧
    ((st.config st.getState.2).map fun cfg => cfg.syncs.length) = some 0 := by
  refine ⟨fun h => ?_, by decide +kernel, by decide +kernel⟩
  have hmatch := (Runs.each_append.mp h).2.1 rfl
  revert hmatch
  change (Reload.after deletingSync storedSync (oneReload.take 9)).getState.1 ≠
    (Reload.after deletingSync storedSync (oneReload.take 9)).getState.2
  decide +kernel

/-! ### Jobs of a runner that was replaced -/

/-- No job that the scheduler of a replaced runner has started is in progress, exactly if at each swap
    the runner that is replaced has none. -/
theorem no_old_job_iff (s : ConfigStore) (lib : CronLibrary) (writes : ι → ConfigWrite)
    (env : ι → Surroundings) (db₀ : Database) (initialCfg : Config)
    (as : List (Reload.Action ι String)) :
    let S := reloadSetup s lib writes env initialCfg
    Runs.Always (Reload.next S) Reload.State.NoOldJob (Reload.init S db₀) as ↔
      Runs.Each (Reload.next S) Reload.State.Drained (Reload.init S db₀) as :=
  Reload.always_noOldJob_iff db₀ as

/-- The same daemon, about to save the sync once more. -/
abbrev savingSync : Reload.Setup DbCall DbCall.Ans Surroundings Database Config String (Fin 1) :=
  reloadSetup {} fiveFieldCron
    (fun _ => .saveSync fiveMinuteSync) (fun _ => {}) fiveMinutes

/-- The sync fires before the reload, and once more when the new runner has replaced the old. -/
def firedTwice : List (Reload.Action (Fin 1) String) :=
  [.fire none "s", .write 0, .write 0, .write 0, .answer 0, .lock 0, .load 0, .load 0, .start 0,
    .stop 0, .swap 0, .fire (some 0) "s"]

/-- The load of that reload returns the sync that was saved. -/
theorem savingSync_loaded : ∃ e, Reload.after savingSync storedSync (firedTwice.take 8) =
    (Reload.after savingSync storedSync (firedTwice.take 6)).move 0
      (.loading (.ret (some fiveMinutes)) e) := by
  obtain ⟨e, hphase, he⟩ : ∃ e, (Reload.after savingSync storedSync (firedTwice.take 6)).phase 0 =
      .loading savingSync.load e ∧ e.Works := ⟨_, rfl, fun _ => rfl⟩
  obtain ⟨hnone, hread⟩ :=
    @rows_fiveMinutes (Reload.after savingSync storedSync (firedTwice.take 6)).shared rfl rfl
  exact reload_rows hphase he hnone hread

/-- The old runner's job is still in progress after the swap, and the new runner executes the same sync
    beside it. -/
theorem old_job_outlives_swap :
    ¬Runs.Always (Reload.next savingSync) Reload.State.NoOldJob
      (Reload.init savingSync storedSync) firedTwice ∧
    (Reload.after savingSync storedSync firedTwice).replaced = [none] ∧
    (Reload.after savingSync storedSync firedTwice).jobs = [(some 0, "s"), (none, "s")] := by
  obtain ⟨e, hloaded⟩ := savingSync_loaded
  have hlast : Reload.after savingSync storedSync firedTwice =
      (firedTwice.drop 8).foldl (Reload.next savingSync)
        (Reload.after savingSync storedSync (firedTwice.take 8)) := by
    rw [Reload.after, Reload.after, ← List.foldl_append, List.take_append_drop]
  rw [hloaded] at hlast
  have hreplaced : (Reload.after savingSync storedSync firedTwice).replaced = [none] := by
    rw [hlast]
    rfl
  have hjobs : (Reload.after savingSync storedSync firedTwice).jobs = [(some 0, "s"), (none, "s")] := by
    rw [hlast]
    rfl
  refine ⟨fun h => ?_, hreplaced, hjobs⟩
  have hold : (Reload.after savingSync storedSync firedTwice).NoOldJob := h.foldl
  refine hold none (by rw [hreplaced]; exact List.mem_singleton_self _) "s" ?_
  rw [hjobs]
  simp

end VaultsSyncer
