import VaultsSyncer.Api.StoredConfig
import VaultsSyncer.Vault.NilAuth
import VaultsSyncer.Vault.WriteMethod

/-! What becomes of a vault that `CreateVault` or `UpdateVault` has taken, once the configuration is
    loaded again: the handlers look at its id alone, and none of the checks and defaults of the YAML
    loader is made up for. A vault without `auth` is stored, and the engine that is built from it
    panics (`engine_never_panics_iff`). A vault without `method` is stored, and the secrets of most
    types are then set with an empty method (`setSecret_writes_iff`). -/

namespace VaultsSyncer

open GoStd Schemes Schemes.Prog

/-- The vault that a request asks to store. -/
def ConfigRequest.vault : ConfigRequest → Option VaultConfig
  | .createVault body => body
  | .updateVault id body => body.map fun v => { v with id := id }
  | _ => none

theorem change_putNode_iff {r : ConfigRequest} {k : String} {v : VaultConfig} :
    r.change = some (.putNode k v) ↔ ∃ v', r.vault = some v' ∧ v'.id = k ∧ v'.reread = v := by
  cases r with
  | createVault body => simp [ConfigRequest.change, ConfigRequest.vault]
  | updateVault id body => simp [ConfigRequest.change, ConfigRequest.vault]
  | deleteVaultConfig id => simp [ConfigRequest.change, ConfigRequest.vault]
  | createSync body => simp [ConfigRequest.change, ConfigRequest.vault]
  | updateSync id body => simp [ConfigRequest.change, ConfigRequest.vault]
  | deleteSyncConfig id => simp [ConfigRequest.change, ConfigRequest.vault]

/-! ### Backends of loaded vaults -/

@[simp] theorem VaultConfig.populateDefaults_populateDefaults (v : VaultConfig) :
    v.populateDefaults.populateDefaults = v.populateDefaults := by
  rw [populateDefaults, getVaultType_populateDefaults]
  rfl

theorem newBackend_eq (v : VaultConfig) : newBackend v =
    if v.type = "tool" then
      match v.resolvedTool with
      | none => .error (.new ("vault " ++ v.id ++
          ": tool config not resolved; ensure type is 'tool' and tool_config is set"))
      | some toolCfg => .ok (.tool v.populateDefaults toolCfg)
    else .ok (.generic (newClient v)) := by
  have htype : v.populateDefaults.getVaultType = "tool" ↔ v.type = "tool" := by
    rw [VaultConfig.getVaultType_populateDefaults, VaultConfig.getVaultType]
    by_cases h : v.type = "" <;> simp [h]
  have hclient : newClient v.populateDefaults = newClient v := by
    simp only [newClient, VaultConfig.populateDefaults_populateDefaults]
  simp only [newBackend, htype, hclient]
  rfl

/-! ### Panics -/

/-- Nothing that a vault can be asked dereferences a nil `auth`: it is of type tool, which needs no
    client; or it has `auth`; or every request of its client is turned down before headers are added. -/
def VaultConfig.PanicSafe (newRequest : String → String → Option GoError) (v : VaultConfig) : Prop :=
  v.type = "tool" ∨ v.auth ≠ none ∨
    ∀ op, newRequest ((newClient v).firstRequest op).1 ((newClient v).firstRequest op).2 ≠ none

/-- Operations on the backends, one after another; their errors are dropped. -/
def performAll (jsonErr : String → GoError) (backends : Backends) : List (String × VaultOp) → Http Unit
  | [] => return ()
  | (id, op) :: ops =>
    match backends.get id with
    | none => performAll jsonErr backends ops
    | some b => do
      logged (b.perform jsonErr op)
      performAll jsonErr backends ops

/-- An engine is built, and all that is asked of its backends later on is done, without a nil
    dereference. -/
def Config.PanicFree (newRequest : String → String → Option GoError) (jsonErr : String → GoError)
    (cfg : Config) : Prop :=
  ∀ ops, NeverPanics newRequest (do
    let backends ← newEngine [] cfg.vaults
    performAll jsonErr backends ops)

section Panics

variable {newRequest : String → String → Option GoError} {jsonErr : String → GoError}

theorem backend_never_panics_iff {v : VaultConfig} (htool : v.resolvedTool = none) :
    (∀ b, newBackend v = .ok b → ∀ op, NeverPanics newRequest (b.perform jsonErr op)) ↔
      v.PanicSafe newRequest := by
  rw [newBackend_eq, htool, VaultConfig.PanicSafe]
  by_cases htype : v.type = "tool"
  · simp [htype]
  · simp only [htype, ↓reduceIte, Except.ok.injEq, forall_eq', Backend.perform, false_or,
      neverPanics_perform_iff, newClient_auth]
    exact forall_or_left

theorem neverPanics_performAll {backends : Backends} : ∀ {ops : List (String × VaultOp)},
    NeverPanics newRequest (performAll jsonErr backends ops) ↔
      ∀ x ∈ ops, ∀ b, backends.get x.1 = some b → NeverPanics newRequest (b.perform jsonErr x.2)
  | [] => by simpa [performAll] using neverPanics_pure ()
  | (id, op) :: ops => by
      rw [performAll, List.forall_mem_cons]
      rcases backends.get id with _ | b
      · simpa using neverPanics_performAll
      · rw [neverPanics_logged_bind, neverPanics_performAll]
        simp

variable {s : ConfigStore} {db : Database}

theorem panicFree_iff (hs : s.Sound db) :
    (∀ cfg, s.Loads db cfg → cfg.PanicFree newRequest jsonErr) ↔
      ∀ k v, (s.graph db).nodes k = some v → ∀ b, newBackend v = .ok b →
        ∀ op, NeverPanics newRequest (b.perform jsonErr op) := by
  constructor
  · intro h k v hnode b hnew op
    obtain ⟨cfg, hloads⟩ := hs.loads
    obtain rfl := hs.node_id hnode
    have hmem {v' : VaultConfig} := ConfigStore.mem_vaults hs hloads (v := v')
    have hget : (registered [] cfg.vaults).get v.id = some b := by
      rw [registered_get (hmem.mpr hnode), hnew]
      · rfl
      · intro v' hv' hid
        rw [hmem, hid, hnode] at hv'
        exact (Option.some.inj hv').symm
    have hsafe := ((neverPanics_newEngine_bind _ _ _).mp (h cfg hloads [(v.id, op)])).2
    exact neverPanics_performAll.mp hsafe (v.id, op) List.mem_cons_self b hget
  · intro h cfg hloads ops
    have hmem {v : VaultConfig} := ConfigStore.mem_vaults hs hloads (v := v)
    rw [neverPanics_newEngine_bind, neverPanics_performAll]
    constructor
    · intro v hv b hnew
      rw [← b.perform_testConnection jsonErr]
      exact h v.id v (hmem.mp hv) b hnew _
    · rintro ⟨id, op⟩ - b hget
      rcases registered_origin hget with hbefore | ⟨v, hv, -, hnew⟩
      · cases hbefore
      · exact h v.id v (hmem.mp hv) b hnew op

/-- The engine of the stored configuration never dereferences a nil `auth`, as long as no vault is
    taken that would make it. -/
theorem engine_never_panics_iff (newRequest : String → String → Option GoError)
    (jsonErr : String → GoError) (s : ConfigStore) (rs : List (ConfigRequest × Surroundings))
    (h : Runs.Each (configured s) (Accepted s) .empty rs) :
    Runs.Always (configured s) (fun db => ∀ cfg, s.Loads db cfg → cfg.PanicFree newRequest jsonErr)
        .empty rs ↔
      ∀ x ∈ rs, ∀ v, x.1.vault = some v → v.reread.PanicSafe newRequest := by
  have hsound := s.sound_empty
  let Safe (v : VaultConfig) : Prop := ∀ b, newBackend v = .ok b →
    ∀ op, NeverPanics newRequest (b.perform jsonErr op)
  calc Runs.Always (configured s)
        (fun db => ∀ cfg, s.Loads db cfg → cfg.PanicFree newRequest jsonErr) .empty rs
      ↔ Runs.Always (configured s) (fun db => ∀ k v, (s.graph db).nodes k = some v → Safe v)
          .empty rs := Runs.Always.congr (fun _ => panicFree_iff) (always_sound hsound h)
    _ ↔ ∀ x ∈ rs, ∀ k v, x.1.change = some (.putNode k v) → Safe v :=
        References.always_nodes_iff (fun _ _ => graph_step) hsound (by rintro k v ⟨⟩) h
    _ ↔ ∀ x ∈ rs, ∀ v, x.1.vault = some v → v.reread.PanicSafe newRequest := by
        refine forall₂_congr fun x _ => ?_
        simp only [change_putNode_iff, forall_exists_index, and_imp]
        constructor
        · intro hsafe v hv
          exact (backend_never_panics_iff rfl).mp (hsafe v.id v.reread v hv rfl rfl)
        · rintro hsafe k _ v hv - rfl
          exact (backend_never_panics_iff rfl).mpr (hsafe v hv)

end Panics

/-- A vault with a bearer token. -/
def createBearer : List (ConfigRequest × Surroundings) :=
  [(.createVault (some { id := "a", endpoint := "https://a", auth := some { method := "bearer" } }), {})]

theorem engine_never_panics_bearer :
    Runs.Always (configured {}) (fun db => ∀ cfg, ConfigStore.Loads {} db cfg →
      cfg.PanicFree (fun _ _ => none) GoError.new) .empty createBearer := by
  refine (engine_never_panics_iff (fun _ _ => none) GoError.new {} createBearer
    ⟨by decide +kernel, trivial⟩).mpr ?_
  rintro x hx v hv
  obtain rfl := List.mem_singleton.mp hx
  cases hv
  exact .inr (.inl (Option.some_ne_none _))

/-- A vault without `auth`, as the handler's own test creates it. -/
def bareVault : VaultConfig :=
  { id := "vault1", name := "Test Vault", type := "generic", endpoint := "http://vault.example.com" }

def createBare : List (ConfigRequest × Surroundings) := [(.createVault (some bareVault), {})]

theorem bare_vault_panics :
    Runs.Each (configured {}) (Accepted {}) .empty createBare ∧
      ¬Runs.Always (configured {}) (fun db => ∀ cfg, ConfigStore.Loads {} db cfg →
        cfg.PanicFree (fun _ _ => none) GoError.new) .empty createBare := by
  have haccepted : Accepted {} .empty (.createVault (some bareVault), {}) := by decide +kernel
  refine ⟨⟨haccepted, trivial⟩, fun h => ?_⟩
  obtain ⟨hs, c, hchange, hgraph⟩ := graph_step (ConfigStore.sound_empty {}) haccepted
  cases hchange
  have hnode := (congrArg (fun g => g.nodes bareVault.id) hgraph).trans
    (References.Graph.nodes_putNode_self _ _ _)
  have hsafe := (backend_never_panics_iff rfl).mp ((panicFree_iff hs).mp h.2 _ _ hnode)
  rcases hsafe with htype | hauth | hrefused
  · exact absurd htype (by decide)
  · exact hauth rfl
  · exact hrefused .testConnection rfl

/-! ### The method of the set request -/

section SetMethod

variable {s : ConfigStore} {db : Database}

theorem entry_eq_none {α : Type} {m : List (String × Option α)} {k : String}
    (h : ∀ e ∈ m, e.1 = k → e.2 = none) : entry m k = none := by
  induction m with
  | nil => rfl
  | cons e m ih =>
    obtain ⟨k', a⟩ := e
    obtain ⟨hhead, htail⟩ := List.forall_mem_cons.mp h
    simp only [entry, List.lookup_cons]
    split
    · rename_i hk
      exact congrArg Option.join (congrArg some (hhead (beq_iff_eq.mp hk).symm))
    · exact ih htail

theorem reread_set {v : VaultConfig} (hset : ∀ e ∈ v.operationEntries, e.1 = "set" → e.2 = none) :
    v.reread.operationsOverride "set" = none := by
  refine entry_eq_none fun e he hkey => ?_
  rw [VaultConfig.operationEntries] at hset he
  rw [VaultConfig.reread_operations] at he
  rcases hops : v.operations with _ | m
  · rw [hops] at he
    cases he
  rw [hops] at he hset
  obtain ⟨e', he', rfl⟩ := List.mem_map.mp he
  have hnone := hset e' (mem_of_mem_mapOf he') hkey
  simp only [hnone]
  rfl

/-- The engine of a stored vault that is not of type tool has the client of what was read back. -/
theorem loaded_client {x : ConfigRequest × Surroundings} (hs : s.Sound db) (hx : Accepted s db x)
    {v : VaultConfig} (hv : x.1.vault = some v) (htype : v.type ≠ "tool") :
    (∃ cfg, s.Loads (configured s db x) cfg) ∧ ∀ cfg, s.Loads (configured s db x) cfg →
      (registered [] cfg.vaults).get v.id = some (.generic (newClient v.reread)) := by
  obtain ⟨hs', c, hchange, hgraph⟩ := graph_step hs hx
  have hnode : (s.graph (configured s db x)).nodes v.id = some v.reread := by
    obtain rfl : References.Change.putNode v.id v.reread = c :=
      Option.some.inj ((change_putNode_iff.mpr ⟨v, hv, rfl, rfl⟩).symm.trans hchange)
    rw [hgraph, References.Graph.nodes_putNode_self]
  refine ⟨hs'.loads, fun cfg hloads => ?_⟩
  have hmem {v' : VaultConfig} := ConfigStore.mem_vaults hs' hloads (v := v')
  have hloaded : v.reread ∈ cfg.vaults := hmem.mpr hnode
  have hget := registered_get hloaded fun v' hv' hid => by
    rw [hmem, hid] at hv'
    exact Option.some.inj (hv'.symm.trans hnode)
  rw [newBackend_eq, VaultConfig.reread_type, if_neg htype] at hget
  exact hget

/-- The secrets of a vault that was taken without a method are set by PUT and POST requests just for
    some types of vault, or where no set request can be sent. -/
theorem setSecret_writes_iff (lib : Libraries) (s : ConfigStore)
    (rs : List (ConfigRequest × Surroundings)) (x : ConfigRequest × Surroundings)
    (h : Runs.Each (configured s) (Accepted s) .empty rs)
    (hx : Accepted s (rs.foldl (configured s) .empty) x) {v : VaultConfig} (hv : x.1.vault = some v)
    (htype : v.type ≠ "tool") (hmethod : v.method = "")
    (hset : ∀ e ∈ v.operationEntries, e.1 = "set" → e.2 = none) :
    (∀ cfg, s.Loads (configured s (rs.foldl (configured s) .empty) x) cfg →
        ∀ c, (registered [] cfg.vaults).get v.id = some (.generic c) → c.WritesOnly lib) ↔
      toLower v.getVaultType ∈ ["azure", "vault", "bitwarden", "vaultwarden"] ∨
        ¬(newClient v.reread).SetSendable lib := by
  obtain ⟨⟨cfg, hloads⟩, hclient⟩ := loaded_client (always_sound s.sound_empty h).foldl hx hv htype
  have hloaded : (∀ cfg, s.Loads (configured s (rs.foldl (configured s) .empty) x) cfg →
      ∀ c, (registered [] cfg.vaults).get v.id = some (.generic c) → c.WritesOnly lib) ↔
      (newClient v.reread).WritesOnly lib := by
    constructor
    · intro hwrites
      exact hwrites cfg hloads _ (hclient cfg hloads)
    · intro hwrites cfg' hloads' c hget
      rw [hclient cfg' hloads', Option.some.injEq, Backend.generic.injEq] at hget
      exact hget ▸ hwrites
  have hop := operationMethod_set (v := v.reread) hmethod (reread_set hset)
  have hvtype : v.reread.getVaultType = v.getVaultType := rfl
  rw [hloaded, writesOnly_iff, hop, hvtype]
  generalize toLower v.getVaultType = t
  by_cases hazure : t = "azure"
  · simp [hazure]
  · by_cases hpost : t ∈ ["vault", "bitwarden", "vaultwarden"]
    · simp [hazure, hpost]
    · simp [hazure, hpost]

end SetMethod

/-- Libraries that find nothing wrong with a request. -/
def openLibraries : Libraries where
  newRequest := fun _ _ => none
  refuses := fun _ => none
  jsonErr := .new
  outOfRange := fun _ => 0

/-- A vault with a bearer token, of the given type. -/
def bearerVault (type : String) : VaultConfig :=
  { id := "a", type := type, endpoint := "https://a", auth := some { method := "bearer" } }

theorem azure_vault_writes :
    Accepted {} .empty (.createVault (some (bearerVault "azure")), {}) ∧ ∀ cfg,
      ConfigStore.Loads {} (configured {} .empty (.createVault (some (bearerVault "azure")), {})) cfg →
        ∀ c, (registered [] cfg.vaults).get "a" = some (.generic c) → c.WritesOnly openLibraries := by
  have haccepted : Accepted {} .empty (.createVault (some (bearerVault "azure")), {}) := by
    decide +kernel
  refine ⟨haccepted, ?_⟩
  exact (setSecret_writes_iff openLibraries {} []
    (.createVault (some (bearerVault "azure")), {}) trivial haccepted rfl (by decide) rfl
    (by simp [bearerVault, VaultConfig.operationEntries])).mpr (.inl (by decide +kernel))

/-- A vault of type generic, with its method left out. -/
theorem generic_vault_gets :
    Accepted {} .empty (.createVault (some (bearerVault "generic")), {}) ∧ ¬∀ cfg,
      ConfigStore.Loads {} (configured {} .empty (.createVault (some (bearerVault "generic")), {})) cfg →
        ∀ c, (registered [] cfg.vaults).get "a" = some (.generic c) → c.WritesOnly openLibraries := by
  have haccepted : Accepted {} .empty (.createVault (some (bearerVault "generic")), {}) := by
    decide +kernel
  refine ⟨haccepted, fun h => ?_⟩
  obtain ⟨⟨cfg, hloads⟩, hclient⟩ := loaded_client (ConfigStore.sound_empty {}) haccepted rfl
    (by decide : (bearerVault "generic").type ≠ "tool")
  have hmethod : (newClient (bearerVault "generic").reread).operationMethod "set" = "" := by
    rw [operationMethod_set rfl (reread_set (by simp [bearerVault, VaultConfig.operationEntries]))]
    decide +kernel
  have hauth : (newClient (bearerVault "generic").reread).cfg.auth = some { method := "bearer" } := by
    rw [newClient_auth]
    rfl
  have hbearer : ¬(newClient (bearerVault "generic").reread).AsksToken := by
    rintro ⟨auth, hauth', hoauth⟩
    obtain rfl := Option.some.inj (hauth.symm.trans hauth')
    exact absurd hoauth (by decide +kernel)
  rcases writesOnly_iff.mp (h cfg hloads _ (hclient cfg hloads)) with hset | hunsent
  · rw [hmethod] at hset
    exact absurd hset (by decide)
  · have hnet (url : String) : Connects (tokenNetwork "") (fun _ => ())
        ((newClient (bearerVault "generic").reread).operationMethod "set") url :=
      ⟨fun _ => rfl, fun _ => rfl, fun _ => ⟨_, rfl⟩, fun _ => rfl⟩
    obtain ⟨req, s', hbuilt, -⟩ := exec_buildRequest (hnet _) (by rw [hauth]; simp)
      (some (String.ofList (marshal ((newClient (bearerVault "generic").reread).payload "k" "v")))) ()
    exact hunsent ⟨"", "k", "v", req, rfl, congrArg Prod.fst hbuilt, rfl, fun hasks => absurd hasks hbearer⟩

end VaultsSyncer
