import VaultsSyncer.Api.StoredConfig
import VaultsSyncer.Sync.ExecuteSync
import VaultsSyncer.Vault.Backend

/-! Who runs a sync, and with which configuration (`sync/runner.go`): cron the enabled ones that have a
    schedule, the API any one by its id. A bidirectional run takes the first of the targets without
    asking whether there is one. The YAML loader turns such a sync down, the handlers do not, so it
    depends on what they are given (`targets_in_range_iff`). -/

namespace VaultsSyncer

open GoStd Schemes Schemes.Prog

/-! ### Dispatch -/

/-- Where `ExecuteSync` goes once the source has answered. -/
inductive Dispatch where
  | noSource
  | unlisted (err : GoError)
  | unidirectional
  | noTarget (targetID : String)
  | bidirectional (targetID : String)
  | otherType
  | indexOutOfRange
  deriving DecidableEq

def dispatch (e : Engine) (syncCfg : SyncConfig) (listing : Except GoError (List String)) : Dispatch :=
  if syncCfg.source ∉ e.backends then .noSource
  else
    match listing with
    | .error err => .unlisted err
    | .ok _ =>
      if syncCfg.syncType = "unidirectional" then .unidirectional
      else if syncCfg.syncType = "bidirectional" then
        match syncCfg.targets[0]? with
        | none => .indexOutOfRange
        | some targetID =>
          if targetID ∈ e.backends then .bidirectional targetID else .noTarget targetID
      else .otherType

/-- What a run comes to, by where it went. -/
def Dispatch.Outcome (e : Engine) (syncCfg : SyncConfig) (a : RunAnswers) (env : String × String → Env)
    (w : World) (r : Except GoError Unit) (w' : World) : Dispatch → Prop
  | .noSource => r = .error (.new ("source vault backend not found: " ++ syncCfg.source)) ∧ w' = w
  | .unlisted err => r = .error err ∧ w' = recordSyncRun a syncCfg.id "failed" ⟨0, 0⟩
      ("failed to list secrets from source: " ++ err.text) w
  | .unidirectional => r = .ok () ∧ ∃ result w₁,
      executeSyncUnidirectionalConcurrent e syncCfg syncCfg.source syncCfg.workerCount a.relisting env w
        result w₁ ∧ w' = recordSyncRun a syncCfg.id (runStatus result) result "" w₁
  | .noTarget targetID =>
    r = .error (.new ("target vault backend not found: " ++ targetID)) ∧ w' = w
  | .bidirectional targetID => r = .ok () ∧ ∃ result w₁,
      executeSyncBidirectionalConcurrent e syncCfg targetID syncCfg.source targetID syncCfg.workerCount
        a.relisting (fun n => env (n, targetID)) w result w₁ ∧
        w' = recordSyncRun a syncCfg.id (runStatus result) result "" w₁
  | .otherType => r = .ok () ∧ w' = recordSyncRun a syncCfg.id (runStatus ⟨0, 0⟩) ⟨0, 0⟩ "" w
  | .indexOutOfRange => False

section Dispatch

variable {e : Engine} {syncCfg : SyncConfig} {a : RunAnswers} {env : String × String → Env}
  {w w' : World} {r : Except GoError Unit}

theorem dispatch_noSource (hsource : syncCfg.source ∉ e.backends)
    (listing : Except GoError (List String)) : dispatch e syncCfg listing = .noSource := if_pos hsource

section Listed

variable (hsource : syncCfg.source ∈ e.backends)

include hsource

theorem dispatch_unlisted (err : GoError) : dispatch e syncCfg (.error err) = .unlisted err :=
  if_neg (not_not.mpr hsource)

theorem dispatch_listed (names : List String) : dispatch e syncCfg (.ok names) =
    if syncCfg.syncType = "unidirectional" then .unidirectional
    else if syncCfg.syncType = "bidirectional" then
      match syncCfg.targets.head? with
      | none => .indexOutOfRange
      | some targetID =>
        if targetID ∈ e.backends then .bidirectional targetID else .noTarget targetID
    else .otherType := by
  rw [List.head?_eq_getElem?]
  exact if_neg (not_not.mpr hsource)

theorem dispatch_bidirectional (names : List String) (htype : syncCfg.syncType = "bidirectional") :
    dispatch e syncCfg (.ok names) =
      match syncCfg.targets.head? with
      | none => .indexOutOfRange
      | some targetID =>
        if targetID ∈ e.backends then .bidirectional targetID else .noTarget targetID := by
  rw [dispatch_listed hsource, htype]
  rfl

end Listed

/-- A run has just the outcomes of where it is dispatched to, and none where it panics. -/
theorem executeSync_iff_outcome : ExecuteSync e syncCfg a env w r w' ↔
    (dispatch e syncCfg (a.listing.reply (.ok a.listing.names))).Outcome e syncCfg a env w r w' := by
  constructor
  · intro h
    cases h with
    | noSource h =>
      rw [dispatch_noSource h]
      exact ⟨rfl, rfl⟩
    | unlisted h hlist =>
      rw [Answer.reply, hlist]
      dsimp only
      rw [dispatch_unlisted h]
      exact ⟨rfl, rfl⟩
    | unidirectional h hlist htype hrun =>
      rw [Answer.reply_of_works hlist, dispatch_listed h, if_pos htype]
      exact ⟨rfl, _, _, hrun, rfl⟩
    | noTarget h hlist htype hfirst htarget =>
      rw [Answer.reply_of_works hlist, dispatch_bidirectional h _ htype, hfirst]
      dsimp only
      rw [if_neg htarget]
      exact ⟨rfl, rfl⟩
    | bidirectional h hlist htype hfirst htarget hrun =>
      rw [Answer.reply_of_works hlist, dispatch_bidirectional h _ htype, hfirst]
      dsimp only
      rw [if_pos htarget]
      exact ⟨rfl, _, _, hrun, rfl⟩
    | otherType h hlist htype =>
      rw [Answer.reply_of_works hlist, dispatch_listed h, if_neg htype.1, if_neg htype.2]
      exact ⟨rfl, rfl⟩
  · intro h
    by_cases hsource : syncCfg.source ∈ e.backends
    swap
    · rw [dispatch_noSource hsource] at h
      obtain ⟨rfl, rfl⟩ := h
      exact .noSource hsource
    rcases hfault : a.listing.fault with _ | err
    swap
    · rw [Answer.reply, hfault] at h
      dsimp only at h
      rw [dispatch_unlisted hsource] at h
      obtain ⟨rfl, rfl⟩ := h
      exact .unlisted hsource hfault
    rw [Answer.reply_of_works hfault] at h
    by_cases huni : syncCfg.syncType = "unidirectional"
    · rw [dispatch_listed hsource, if_pos huni] at h
      obtain ⟨rfl, result, w₁, hrun, rfl⟩ := h
      exact .unidirectional hsource hfault huni hrun
    by_cases hbi : syncCfg.syncType = "bidirectional"
    · rw [dispatch_bidirectional hsource _ hbi] at h
      rcases hfirst : syncCfg.targets.head? with _ | targetID
      · rw [hfirst] at h
        exact h.elim
      · rw [hfirst] at h
        dsimp only at h
        split_ifs at h with htarget
        · obtain ⟨rfl, result, w₁, hrun, rfl⟩ := h
          exact .bidirectional hsource hfault hbi hfirst htarget hrun
        · obtain ⟨rfl, rfl⟩ := h
          exact .noTarget hsource hfault hbi hfirst htarget
    · rw [dispatch_listed hsource, if_neg huni, if_neg hbi] at h
      obtain ⟨rfl, rfl⟩ := h
      exact .otherType hsource hfault ⟨huni, hbi⟩

/-- A bidirectional sync without a target. -/
def SyncConfig.Untargeted (sc : SyncConfig) : Prop := sc.syncType = "bidirectional" ∧ sc.targets = []

/-- No listing leads a sync out of range, unless it is untargeted and its source has a backend. -/
theorem dispatch_in_range_iff : (∀ listing, dispatch e syncCfg listing ≠ .indexOutOfRange) ↔
    ¬(syncCfg.source ∈ e.backends ∧ syncCfg.Untargeted) := by
  constructor
  · rintro h ⟨hsource, htype, htargets⟩
    refine h (.ok []) ?_
    rw [dispatch_bidirectional hsource _ htype, htargets]
    rfl
  · intro h listing hrange
    by_cases hsource : syncCfg.source ∈ e.backends
    swap
    · rw [dispatch_noSource hsource] at hrange
      cases hrange
    rcases listing with err | names
    · rw [dispatch_unlisted hsource] at hrange
      cases hrange
    rw [dispatch_listed hsource] at hrange
    split_ifs at hrange with huni hbi
    rcases hfirst : syncCfg.targets.head? with _ | targetID
    · exact h ⟨hsource, hbi, List.head?_eq_none_iff.mp hfirst⟩
    · rw [hfirst] at hrange
      dsimp only at hrange
      split_ifs at hrange

end Dispatch

/-! ### Who runs a sync -/

/-- The syncs that `Start` hands to cron. -/
def scheduled (cfg : Config) : List SyncConfig :=
  cfg.syncs.filter fun syncCfg => syncCfg.isEnabled ∧ syncCfg.schedule ≠ ""

/-- The sync that `ExecuteSyncNow` executes, bypassing schedule. -/
def executeSyncNow (syncID : String) (cfg : Config) : Option SyncConfig :=
  cfg.syncs.find? fun syncCfg => syncCfg.id = syncID

/-- The daemon may run the sync. -/
inductive Started (cfg : Config) (syncCfg : SyncConfig) : Prop where
  | cron (h : syncCfg ∈ scheduled cfg)
  | now (syncID : String) (h : executeSyncNow syncID cfg = some syncCfg)

/-- The engine that is built for a configuration: the vaults that the factory makes a backend for. -/
def builtEngine {β : Type} (factory : VaultConfig → Except GoError β) (cfg : Config) : Engine where
  backends := (cfg.vaults.filter fun v => (factory v).isOk).map VaultConfig.id

/-- The request brings no untargeted sync together with a backend for its source. -/
def KeepsTargets {β : Type} (factory : VaultConfig → Except GoError β) (s : ConfigStore)
    (db : Database) : ConfigRequest × Surroundings → Prop
  | (.createSync (some sc), _) | (.updateSync _ (some sc), _) =>
    sc.Untargeted → ∀ v, (s.graph db).nodes sc.source = some v → ¬(factory v).isOk
  | (.createVault (some v), _) =>
    (factory v.reread).isOk → ∀ k sc, (s.graph db).links k = some sc → sc.source = v.id →
      ¬sc.Untargeted
  | (.updateVault id (some v), _) =>
    (factory { v with id := id }.reread).isOk → ∀ k sc, (s.graph db).links k = some sc →
      sc.source = id → ¬sc.Untargeted
  | _ => True

section Started

variable {s : ConfigStore} {db : Database}

theorem Started.mem {cfg : Config} {syncCfg : SyncConfig} (h : Started cfg syncCfg) :
    syncCfg ∈ cfg.syncs := by
  cases h with
  | cron h => exact List.mem_of_mem_filter h
  | now syncID h => exact List.mem_of_find?_eq_some h

/-- Every stored sync can be run by its id. -/
theorem started_of_link (hs : s.Sound db) {cfg : Config} (hloads : s.Loads db cfg) {k : String}
    {sc : SyncConfig} (hlink : (s.graph db).links k = some sc) : Started cfg sc := by
  obtain rfl := hs.link_id hlink
  have hmem := (ConfigStore.mem_syncs hs hloads).mpr hlink
  rcases hfind : executeSyncNow sc.id cfg with _ | sc'
  · have hnone := List.find?_eq_none.mp hfind sc hmem
    simp at hnone
  · have hid : sc'.id = sc.id := by simpa using List.find?_some hfind
    have hlink' := (ConfigStore.mem_syncs hs hloads).mp (List.mem_of_find?_eq_some hfind)
    rw [hid, hlink, Option.some.injEq] at hlink'
    exact .now sc.id (hlink' ▸ hfind)

variable {β : Type} {factory : VaultConfig → Except GoError β}

theorem mem_builtEngine {cfg : Config} {id : String} : id ∈ (builtEngine factory cfg).backends ↔
    ∃ v ∈ cfg.vaults, (factory v).isOk ∧ v.id = id := by
  simp [builtEngine, and_assoc]

/-- With `NewBackend` for the factory, these are the backends that the engine registers. -/
theorem mem_builtEngine_newBackend {cfg : Config} {id : String} :
    id ∈ (builtEngine newBackend cfg).backends ↔ (registered [] cfg.vaults).get id ≠ none := by
  rw [mem_builtEngine]
  constructor
  · rintro ⟨v, hv, hok, rfl⟩
    rcases hnew : newBackend v with err | b
    · rw [hnew] at hok
      cases hok
    · exact registered_ne_none hnew hv
  · intro h
    obtain ⟨b, hb⟩ := Option.ne_none_iff_exists'.mp h
    rcases registered_origin hb with hbefore | ⟨v, hv, hid, hnew⟩
    · cases hbefore
    · exact ⟨v, hv, by rw [hnew]; rfl, hid⟩

theorem in_range_iff (hs : s.Sound db) :
    (∀ cfg, s.Loads db cfg → ∀ sc, Started cfg sc →
        ∀ listing, dispatch (builtEngine factory cfg) sc listing ≠ .indexOutOfRange) ↔
      (s.graph db).Related SyncConfig.source fun sc v => ¬(sc.Untargeted ∧ (factory v).isOk) := by
  constructor
  · rintro h k sc v hlink hnode ⟨huntargeted, hbackend⟩
    obtain ⟨cfg, hloads⟩ := hs.loads
    have hid := hs.node_id hnode
    have hv : v ∈ cfg.vaults := (ConfigStore.mem_vaults hs hloads).mpr (by rw [hid, hnode])
    exact dispatch_in_range_iff.mp (h cfg hloads sc (started_of_link hs hloads hlink))
      ⟨mem_builtEngine.mpr ⟨v, hv, hbackend, hid⟩, huntargeted⟩
  · intro h cfg hloads sc hstarted
    refine dispatch_in_range_iff.mpr ?_
    rintro ⟨hsource, huntargeted⟩
    obtain ⟨v, hv, hbackend, hid⟩ := mem_builtEngine.mp hsource
    have hlink := (ConfigStore.mem_syncs hs hloads).mp hstarted.mem
    have hnode := (ConfigStore.mem_vaults hs hloads).mp hv
    exact h sc.id sc v hlink (hid ▸ hnode) ⟨huntargeted, hbackend⟩

theorem keepsTargets_iff (x : ConfigRequest × Surroundings) :
    KeepsTargets factory s db x ↔ ∀ c, x.1.change = some c → (s.graph db).RelatedBy SyncConfig.source
      (fun sc v => ¬(sc.Untargeted ∧ (factory v).isOk)) c := by
  have hnode {k : String} {v : VaultConfig} : ((factory v).isOk → ∀ l sc,
      (s.graph db).links l = some sc → sc.source = k → ¬sc.Untargeted) ↔
        ∀ l sc, (s.graph db).links l = some sc → sc.source = k →
          ¬(sc.Untargeted ∧ (factory v).isOk) := by
    constructor
    · rintro h l sc hlink hsource ⟨huntargeted, hbackend⟩
      exact h hbackend l sc hlink hsource huntargeted
    · intro h hbackend l sc hlink hsource huntargeted
      exact h l sc hlink hsource ⟨huntargeted, hbackend⟩
  have hlink {sc sc' : SyncConfig} (hsource : sc'.source = sc.source)
      (huntargeted : sc'.Untargeted ↔ sc.Untargeted) : (sc.Untargeted → ∀ v,
        (s.graph db).nodes sc.source = some v → ¬(factory v).isOk) ↔
          ∀ v, (s.graph db).nodes sc'.source = some v → ¬(sc'.Untargeted ∧ (factory v).isOk) := by
    rw [hsource, huntargeted]
    constructor
    · rintro h v hv ⟨hun, hbackend⟩
      exact h hun v hv hbackend
    · intro h hun v hv hbackend
      exact h v hv ⟨hun, hbackend⟩
  obtain ⟨r, env⟩ := x
  cases r with
  | createVault body | updateVault id body =>
    rcases body with _ | v
    · simp [KeepsTargets, ConfigRequest.change]
    · simp only [KeepsTargets, ConfigRequest.change, Option.map_some, Option.some.injEq, forall_eq',
        References.Graph.RelatedBy]
      exact hnode
  | createSync body | updateSync id body =>
    rcases body with _ | sc
    · simp [KeepsTargets, ConfigRequest.change]
    · simp only [KeepsTargets, ConfigRequest.change, Option.map_some, Option.some.injEq, forall_eq',
        References.Graph.RelatedBy]
      exact hlink (by simp) (by simp [SyncConfig.Untargeted])
  | deleteVaultConfig id | deleteSyncConfig id =>
    simp [KeepsTargets, ConfigRequest.change, References.Graph.RelatedBy]

/-- No run of a stored sync indexes the targets out of range, exactly as long as no request brings a
    bidirectional sync without a target together with a backend for its source. -/
theorem targets_in_range_iff (factory : VaultConfig → Except GoError β) (s : ConfigStore)
    (rs : List (ConfigRequest × Surroundings)) (h : Runs.Each (configured s) (Accepted s) .empty rs) :
    Runs.Always (configured s) (fun db => ∀ cfg, s.Loads db cfg → ∀ sc, Started cfg sc →
        ∀ listing, dispatch (builtEngine factory cfg) sc listing ≠ .indexOutOfRange) .empty rs ↔
      Runs.Each (configured s) (KeepsTargets factory s) .empty rs := by
  have hsound := s.sound_empty
  have hrelated : (s.graph .empty).Related SyncConfig.source fun sc v =>
      ¬(sc.Untargeted ∧ (factory v).isOk) := by
    rintro k sc v ⟨⟩
  calc Runs.Always (configured s) (fun db => ∀ cfg, s.Loads db cfg → ∀ sc, Started cfg sc →
        ∀ listing, dispatch (builtEngine factory cfg) sc listing ≠ .indexOutOfRange) .empty rs
      ↔ Runs.Always (configured s) (fun db => (s.graph db).Related SyncConfig.source fun sc v =>
          ¬(sc.Untargeted ∧ (factory v).isOk)) .empty rs :=
        Runs.Always.congr (fun _ => in_range_iff) (always_sound hsound h)
    _ ↔ Runs.Each (configured s) (fun db x => ∀ c, x.1.change = some c →
          (s.graph db).RelatedBy SyncConfig.source
            (fun sc v => ¬(sc.Untargeted ∧ (factory v).isOk)) c) .empty rs :=
        References.always_related_iff (fun _ _ => graph_step) hsound hrelated h
    _ ↔ Runs.Each (configured s) (KeepsTargets factory s) .empty rs :=
        Runs.each_congr fun db x => (keepsTargets_iff x).symm

end Started

/-- A vault, and a sync from it to itself in both directions. -/
def configureMirror : List (ConfigRequest × Surroundings) :=
  [(.createVault (some { id := "a", endpoint := "https://a", auth := some { method := "bearer" } }), {}),
    (.createSync (some { id := "s", source := "a", targets := ["a"], syncType := "bidirectional" }), {})]

theorem targets_in_range_mirror : Runs.Always (configured {}) (fun db => ∀ cfg,
    ConfigStore.Loads {} db cfg → ∀ sc, Started cfg sc → ∀ listing,
      dispatch (builtEngine newBackend cfg) sc listing ≠ .indexOutOfRange) .empty configureMirror := by
  refine (targets_in_range_iff newBackend {} configureMirror
    ⟨by decide +kernel, by decide +kernel, trivial⟩).mpr ⟨?_, ?_, trivial⟩
  · rintro - k sc ⟨⟩
  · rintro ⟨-, ⟨⟩⟩

/-- The same without the target. -/
def createUntargeted : List (ConfigRequest × Surroundings) :=
  [(.createVault (some { id := "a", endpoint := "https://a", auth := some { method := "bearer" } }), {}),
    (.createSync (some { id := "s", source := "a", targets := [], syncType := "bidirectional" }), {})]

theorem untargeted_sync_panics :
    Runs.Each (configured {}) (Accepted {}) .empty createUntargeted ∧
      ¬Runs.Always (configured {}) (fun db => ∀ cfg, ConfigStore.Loads {} db cfg → ∀ sc, Started cfg sc →
        ∀ listing, dispatch (builtEngine newBackend cfg) sc listing ≠ .indexOutOfRange) .empty
          createUntargeted := by
  have haccepted : Runs.Each (configured {}) (Accepted {}) .empty createUntargeted := by
    refine ⟨?_, ?_, trivial⟩ <;> decide +kernel
  refine ⟨haccepted, fun h => ?_⟩
  have hsound := ConfigStore.sound_empty {}
  have hrelated := (in_range_iff (always_sound hsound haccepted).foldl).mp h.foldl
  rw [graph_configured hsound haccepted] at hrelated
  exact hrelated "s" _ _ rfl rfl ⟨⟨rfl, rfl⟩, rfl⟩

end VaultsSyncer
