import VaultsSyncer.Config.Types
import VaultsSyncer.Config.Vaults

/-! The YAML way into a configuration (`config/loader.go`, `config/defaults.go`, `config/validate.go`):
    defaults, tool files, validation. What the YAML decoder makes of the main file and of a tool file
    is given. The server and logging sections have no part in this. -/

namespace VaultsSyncer

open GoStd

/-- The top-level configuration. -/
structure Config where
  vaults : List VaultConfig := []
  syncs : List SyncConfig := []

/-! ### Defaults -/

/-- Default values for a sync entry. -/
def applySyncDefaults (s : SyncConfig) : SyncConfig :=
  let retry := s.retryPolicy
  { s with
    retryPolicy :=
      { maxRetries := if retry.maxRetries = 0 then 3 else retry.maxRetries
        initialBackoff := if retry.initialBackoff = 0 then 1000 else retry.initialBackoff
        maxBackoff := if retry.maxBackoff = 0 then 60000 else retry.maxBackoff
        multiplier := if retry.multiplier = 0 then 2 else retry.multiplier }
    syncType := if s.syncType = "" then "unidirectional" else s.syncType }

/-- Default values for a vault entry. -/
def applyVaultDefaults (v : VaultConfig) : VaultConfig :=
  { v with
    method := if v.method = "" then "PUT" else v.method
    timeout := if v.timeout = 0 then 30 else v.timeout }

def applyConfigDefaults (cfg : Config) : Config where
  vaults := cfg.vaults.map applyVaultDefaults
  syncs := cfg.syncs.map applySyncDefaults

/-! ### Tool files -/

/-- Reads a tool file: an operation without exit codes succeeds with 0. -/
def loadExternalToolConfig (file : Except GoError ExternalToolConfig) :
    Except GoError ExternalToolConfig :=
  file.map fun toolCfg =>
    { toolCfg with
      operations := toolCfg.operations.map fun e =>
        (e.1, e.2.map fun op =>
          { op with successExitCodes := if op.successExitCodes = [] then [0] else op.successExitCodes }) }

/-- Loads the file a tool vault refers to. -/
def resolveToolConfig (files : String → Except GoError ExternalToolConfig) (v : VaultConfig) :
    Except GoError VaultConfig :=
  if toLower v.type ≠ "tool" ∨ v.toolConfig = "" then .ok v
  else
    match loadExternalToolConfig (files v.toolConfig) with
    | .error err =>
      .error (.wrap ("vault " ++ v.id ++ ": failed to load tool config '" ++ v.toolConfig ++ "': ") err)
    | .ok toolCfg => .ok { v with resolvedTool := some toolCfg }

/-! ### Validation -/

/-- A tool-type vault. -/
def validateToolVault (v : VaultConfig) : Except GoError Unit :=
  if v.toolConfig = "" then
    .error (.new ("vault " ++ v.id ++ ": 'tool_config' is required for type 'tool'"))
  else
    match v.resolvedTool with
    | none =>
      .error (.new ("vault " ++ v.id ++ ": tool config file '" ++ v.toolConfig ++ "' was not loaded"))
    | some tool =>
      match entry tool.operations "list", entry tool.operations "get" with
      | none, _ =>
        .error (.new ("vault " ++ v.id ++ ": tool config must define an 'operations.list' entry"))
      | some list, get =>
        if list.command = "" then
          .error (.new
            ("vault " ++ v.id ++ ": tool config 'operations.list.command' must not be empty"))
        else
          match get with
          | none =>
            .error (.new ("vault " ++ v.id ++ ": tool config must define an 'operations.get' entry"))
          | some get =>
            if get.command = "" then
              .error (.new
                ("vault " ++ v.id ++ ": tool config 'operations.get.command' must not be empty"))
            else .ok ()

def authMethods : List String := ["bearer", "basic", "oauth2", "api_key", "custom"]

/-- An HTTP vault. -/
def validateHTTPVault (v : VaultConfig) : Except GoError Unit :=
  if v.endpoint = "" then .error (.new ("vault " ++ v.id ++ " must have an endpoint"))
  else if v.fieldNames.nameField = "" ∨ v.fieldNames.valueField = "" then
    .error (.new
      ("vault " ++ v.id ++ " must define field_names.name_field and field_names.value_field"))
  else
    match v.auth with
    | none => .error (.new ("vault " ++ v.id ++ ": 'auth' configuration is required"))
    | some auth =>
      if auth.method = "" then .error (.new ("vault " ++ v.id ++ ": 'auth.method' is required"))
      else if toLower auth.method ∉ authMethods then
        .error (.new ("vault " ++ v.id ++ ": invalid auth method '" ++ auth.method ++
          "', must be one of: bearer, basic, oauth2, api_key, custom"))
      else if toUpper v.method ≠ "PUT" ∧ toUpper v.method ≠ "POST" then
        .error (.new
          ("vault " ++ v.id ++ " has invalid method " ++ v.method ++ ", must be PUT or POST"))
      else .ok ()

def validateSingleVault (v : VaultConfig) : Except GoError Unit :=
  if v.legacyAuthMethod ≠ "" ∨ v.legacyAuthHeaders ≠ [] then
    .error (.new ("vault " ++ v.id ++ ": legacy 'auth_method' and 'auth_headers' fields are no longer " ++
      "supported. Please migrate to the new 'auth' structure. See README.md for examples"))
  else if toLower v.type = "tool" then validateToolVault v
  else validateHTTPVault v

/-- Validates each vault; `seen` are the ids so far. -/
def validateVaults (seen : List String) : List VaultConfig → Except GoError (List String)
  | [] => .ok seen
  | v :: vaults =>
    if v.id = "" then .error (.new "vault must have an ID")
    else if v.id ∈ seen then .error (.new ("duplicate vault ID: " ++ v.id))
    else
      match validateSingleVault v with
      | .error err => .error err
      | .ok () => validateVaults (v.id :: seen) vaults

/-- Validates a sync against the known vault ids. -/
def validateSync (vaultIDs : List String) (s : SyncConfig) : Except GoError Unit :=
  if s.id = "" then .error (.new "sync must have an ID")
  else if s.source = "" then .error (.new ("sync " ++ s.id ++ " must have a source"))
  else if s.targets = [] then .error (.new ("sync " ++ s.id ++ " must have at least one target"))
  else if s.source ∉ vaultIDs then
    .error (.new ("sync " ++ s.id ++ " references unknown source vault " ++ s.source))
  else
    match s.targets.find? (· ∉ vaultIDs) with
    | some t => .error (.new ("sync " ++ s.id ++ " references unknown target vault " ++ t))
    | none =>
      if s.syncType = "bidirectional" ∧ s.targets.length ≠ 1 then
        .error (.new ("sync " ++ s.id ++ ": bidirectional sync only allowed for 1:1 (has " ++
          toString s.targets.length ++ " targets)"))
      else if s.syncType ≠ "unidirectional" ∧ s.syncType ≠ "bidirectional" then
        .error (.new ("sync " ++ s.id ++ ": invalid sync_type " ++ s.syncType ++
          ", must be unidirectional or bidirectional"))
      else .ok ()

/-- Checks the configuration for errors. -/
def Config.validate (cfg : Config) : Except GoError Unit := do
  if cfg.vaults = [] then .error (.new "no vaults configured")
  else
    let vaultIDs ← validateVaults [] cfg.vaults
    cfg.syncs.forM (validateSync vaultIDs)

/-- What a vault has passed when validation goes on behind it. -/
theorem validateVaults_cons {v : VaultConfig} {vaults : List VaultConfig} {seen ids : List String}
    (h : validateVaults seen (v :: vaults) = .ok ids) :
    v.id ∉ seen ∧ validateSingleVault v = .ok () ∧ validateVaults (v.id :: seen) vaults = .ok ids := by
  rw [validateVaults] at h
  split_ifs at h with hempty hseen
  rcases hvalid : validateSingleVault v with err | ⟨⟩
  · rw [hvalid] at h
    cases h
  · rw [hvalid] at h
    exact ⟨hseen, rfl, h⟩

/-- The ids that validation hands on are those of the vaults. -/
theorem ids_of_validateVaults {vaults : List VaultConfig} {seen ids : List String}
    (h : validateVaults seen vaults = .ok ids) : ∀ id ∈ ids, id ∈ seen ∨ ∃ v ∈ vaults, v.id = id := by
  induction vaults generalizing seen with
  | nil =>
    obtain rfl := Except.ok.inj h
    exact fun id hid => .inl hid
  | cons v vaults ih =>
    obtain ⟨-, -, hrest⟩ := validateVaults_cons h
    intro id hid
    rcases ih hrest id hid with hseen | ⟨v', hv', hid'⟩
    · rcases List.mem_cons.mp hseen with rfl | hseen
      · exact .inr ⟨v, List.mem_cons_self, rfl⟩
      · exact .inl hseen
    · exact .inr ⟨v', List.mem_cons_of_mem _ hv', hid'⟩

/-- Validation goes through every vault. -/
theorem valid_of_validateVaults {vaults : List VaultConfig} {seen ids : List String}
    (h : validateVaults seen vaults = .ok ids) : ∀ v ∈ vaults, validateSingleVault v = .ok () := by
  induction vaults generalizing seen with
  | nil => exact fun v hv => absurd hv List.not_mem_nil
  | cons v vaults ih =>
    obtain ⟨-, hvalid, hrest⟩ := validateVaults_cons h
    exact List.forall_mem_cons.mpr ⟨hvalid, ih hrest⟩

/-- Validation goes through the vaults, then through the syncs with their ids. -/
theorem validate_eq_ok {cfg : Config} (h : cfg.validate = .ok ()) : ∃ ids,
    validateVaults [] cfg.vaults = .ok ids ∧ cfg.syncs.forM (validateSync ids) = .ok () := by
  rw [Config.validate] at h
  split_ifs at h
  rcases hids : validateVaults [] cfg.vaults with err | ids
  · rw [hids] at h
    cases h
  · rw [hids] at h
    exact ⟨ids, rfl, h⟩

theorem valid_of_validate {cfg : Config} (h : cfg.validate = .ok ()) {v : VaultConfig}
    (hv : v ∈ cfg.vaults) : validateSingleVault v = .ok () := by
  obtain ⟨ids, hids, -⟩ := validate_eq_ok h
  exact valid_of_validateVaults hids v hv

/-- What a vault has that is accepted and is no tool. -/
theorem valid_http {v : VaultConfig} (h : validateSingleVault v = .ok ()) (ht : toLower v.type ≠ "tool") :
    v.endpoint ≠ "" ∧ v.fieldNames.nameField ≠ "" ∧ v.fieldNames.valueField ≠ "" ∧ v.auth ≠ none := by
  rw [validateSingleVault] at h
  by_cases hlegacy : v.legacyAuthMethod ≠ "" ∨ v.legacyAuthHeaders ≠ []
  · rw [if_pos hlegacy] at h
    cases h
  rw [if_neg hlegacy, if_neg ht, validateHTTPVault] at h
  by_cases hendpoint : v.endpoint = ""
  · rw [if_pos hendpoint] at h
    cases h
  rw [if_neg hendpoint] at h
  by_cases hfields : v.fieldNames.nameField = "" ∨ v.fieldNames.valueField = ""
  · rw [if_pos hfields] at h
    cases h
  rw [if_neg hfields] at h
  rw [not_or] at hfields
  refine ⟨hendpoint, hfields.1, hfields.2, fun hauth => ?_⟩
  rw [hauth] at h
  cases h

theorem source_of_validateSync {vaultIDs : List String} {s : SyncConfig}
    (h : validateSync vaultIDs s = .ok ()) : s.source ∈ vaultIDs := by
  by_contra hno
  unfold validateSync at h
  rw [if_pos hno] at h
  split_ifs at h

/-- A check that goes through a list has passed each entry. -/
theorem forM_eq_ok {α ε : Type} {f : α → Except ε Unit} :
    ∀ {l : List α}, l.forM f = .ok () → ∀ x ∈ l, f x = .ok ()
  | [], _, x, hx => by cases hx
  | y :: l, h, x, hx => by
      rw [List.forM_eq_forM, List.forM_cons] at h
      rcases hy : f y with err | ⟨⟩
      · rw [hy] at h
        cases h
      · rw [hy] at h
        rcases List.mem_cons.mp hx with rfl | hx
        · exact hy
        · exact forM_eq_ok (l := l) h x hx

/-- In a configuration that is accepted, the source of a sync is one of the vaults. -/
theorem source_of_validate {cfg : Config} (h : cfg.validate = .ok ()) {s : SyncConfig}
    (hs : s ∈ cfg.syncs) : ∃ v ∈ cfg.vaults, v.id = s.source := by
  obtain ⟨ids, hids, hsyncs⟩ := validate_eq_ok h
  have hsync : validateSync ids s = .ok () := forM_eq_ok hsyncs s hs
  simpa using ids_of_validateVaults hids _ (source_of_validateSync hsync)

/-! ### Loading -/

/-- Loads and validates the configuration. -/
def loadConfig (parsed : Except GoError Config) (files : String → Except GoError ExternalToolConfig) :
    Except GoError Config := do
  let cfg := applyConfigDefaults (← parsed)
  let vaults ← cfg.vaults.mapM (resolveToolConfig files)
  let cfg := { cfg with vaults := vaults }
  cfg.validate
  return cfg

end VaultsSyncer
