import VaultsSyncer.Vault.Client

/-! The backends of the vaults (`vault/backend.go`), and how an engine gets them (`newEngine` in
    `sync/engine.go`). A nil `Auth` ends the whole program, wherever it is dereferenced. -/

namespace VaultsSyncer

open GoStd Schemes Schemes.Prog

namespace Client

variable (c : Client)

/-- Deletes a secret from the vault. -/
def deleteSecret (name : String) : Http Unit := do
  let req ← c.buildRequest (c.operationMethod "delete") (c.operationEndpoint "delete" name) none
  let _ ← send req "failed to delete secret: " (c.operationStatusCodes "delete")
  return ()

/-- Tests if the connection to the vault works. -/
def testConnection : Http Unit := do
  let req ← c.buildRequest "GET" (trimSuffix c.cfg.endpoint "/") none
  match ← Http.clientDo req with
  | .error err => Http.fail (.wrap "connection failed: " err)
  | .ok resp =>
    if resp.statusCode ≠ 200 ∧ resp.statusCode ≠ 401 then
      Http.fail (.new ("vault returned unexpected status " ++ toString resp.statusCode))
    else return ()

end Client

/-! ### Backends -/

/-- A vault behind an HTTP client, or behind the commands of a tool. -/
inductive Backend where
  | generic (client : Client)
  | tool (cfg : VaultConfig) (toolCfg : ExternalToolConfig)

/-- Creates a backend for a vault configuration. -/
def newBackend (cfg : VaultConfig) : Except GoError Backend :=
  let cfg := cfg.populateDefaults
  let client := newClient cfg
  if cfg.getVaultType = "tool" then
    match cfg.resolvedTool with
    | none =>
      .error (.new ("vault " ++ cfg.id ++
        ": tool config not resolved; ensure type is 'tool' and tool_config is set"))
    | some toolCfg => .ok (.tool cfg toolCfg)
  else .ok (.generic client)

/-- What `NewBackend` leaves of a vault in the configuration that it is from. The backend works on a copy,
    but the copy has the same map `OperationsOverride`, unless that is nil; and then the defaults that the
    client merges into the map are in both. -/
def VaultConfig.afterNewBackend (cfg : VaultConfig) : VaultConfig :=
  { cfg with operations := cfg.operations.bind fun _ => (newClient cfg.populateDefaults).cfg.operations }

/-- Tests the connection; what a tool prints is of no interest here. -/
def Backend.testConnection : Backend → Http Unit
  | .generic client => client.testConnection
  | .tool _ _ => return ()

/-- What can be asked of a vault. -/
inductive VaultOp where
  | testConnection
  | listSecrets
  | getSecret (name : String)
  | setSecret (name value : String)
  | deleteSecret (name : String)

/-- The operation, its result dropped. -/
def Client.perform (c : Client) (jsonErr : String → GoError) : VaultOp → Http Unit
  | .testConnection => c.testConnection
  | .listSecrets => do
    let _ ← c.listSecrets jsonErr
    return ()
  | .getSecret name => do
    let _ ← c.getSecret jsonErr name
    return ()
  | .setSecret name value => c.setSecret name value
  | .deleteSecret name => c.deleteSecret name

/-- So on a backend; a tool runs its commands without a client. -/
def Backend.perform (jsonErr : String → GoError) : Backend → VaultOp → Http Unit
  | .generic client, op => client.perform jsonErr op
  | .tool _ _, _ => return ()

/-! ### The backends of an engine -/

/-- An error is logged and dropped. -/
def logged (p : Http Unit) : Http Unit :=
  tryCatch p fun failure =>
    match failure with
    | .error _ => return ()
    | .nilDereference => throw .nilDereference

/-- The backends by vault id. -/
abbrev Backends := List (String × Backend)

/-- `backends[id]`. -/
def Backends.get (backends : Backends) (id : String) : Option Backend := backends.lookup id

/-- `backends[id] = b`. -/
def Backends.set (backends : Backends) (id : String) (b : Backend) : Backends := (id, b) :: backends

/-- Creates a backend for each vault and tests its connection. -/
def newEngine (backends : Backends) : List VaultConfig → Http Backends
  | [] => return backends
  | vaultCfg :: vaults =>
    match newBackend vaultCfg with
    | .error _ => newEngine backends vaults
    | .ok backend => do
      logged backend.testConnection
      newEngine (backends.set vaultCfg.id backend) vaults

/-- The backends that an engine ends up with. -/
def registered (backends : Backends) : List VaultConfig → Backends
  | [] => backends
  | vaultCfg :: vaults =>
    match newBackend vaultCfg with
    | .error _ => registered backends vaults
    | .ok backend => registered (backends.set vaultCfg.id backend) vaults

theorem Backends.get_set (backends : Backends) (id k : String) (b : Backend) :
    (backends.set id b).get k = if k = id then some b else backends.get k := by
  rw [get, set, List.lookup_cons]
  by_cases h : k = id
  · simp [h]
  · have hbeq : (k == id) = false := beq_eq_false_iff_ne.mpr h
    simp [h, hbeq, get]

/-- A backend was there before, or belongs to a vault with that id. -/
theorem registered_origin {id : String} {b : Backend} : ∀ {vaults : List VaultConfig}
    {backends : Backends}, (registered backends vaults).get id = some b →
      backends.get id = some b ∨ ∃ v ∈ vaults, v.id = id ∧ newBackend v = .ok b
  | [], _, h => .inl h
  | v :: vaults, backends, h => by
      rw [registered] at h
      rcases hnew : newBackend v with err | b'
      · rw [hnew] at h
        refine (registered_origin h).imp_right ?_
        rintro ⟨v', hv', horigin⟩
        exact ⟨v', List.mem_cons_of_mem _ hv', horigin⟩
      · rw [hnew] at h
        rcases registered_origin h with hbefore | ⟨v', hv', horigin⟩
        · rw [Backends.get_set] at hbefore
          split_ifs at hbefore with hid
          · cases hbefore
            exact .inr ⟨v, List.mem_cons_self, hid.symm, hnew⟩
          · exact .inl hbefore
        · exact .inr ⟨v', List.mem_cons_of_mem _ hv', horigin⟩

theorem registered_keeps {id : String} : ∀ {vaults : List VaultConfig} {backends : Backends},
    backends.get id ≠ none → (registered backends vaults).get id ≠ none
  | [], _, h => h
  | v :: vaults, backends, h => by
      rw [registered]
      rcases newBackend v with err | b
      · exact registered_keeps h
      · refine registered_keeps ?_
        rw [Backends.get_set]
        split_ifs
        · exact Option.some_ne_none b
        · exact h

theorem registered_ne_none {v : VaultConfig} {b : Backend} (hnew : newBackend v = .ok b) :
    ∀ {vaults : List VaultConfig} {backends : Backends}, v ∈ vaults →
      (registered backends vaults).get v.id ≠ none
  | v' :: vaults, backends, hv => by
      rw [registered]
      rcases List.mem_cons.mp hv with rfl | hv
      · rw [hnew]
        refine registered_keeps ?_
        rw [Backends.get_set, if_pos rfl]
        exact Option.some_ne_none b
      · rcases newBackend v' with err | b'
        · exact registered_ne_none hnew hv
        · exact registered_ne_none hnew hv

/-- Where no other vault has its id, a vault is served by its own backend. -/
theorem registered_get {v : VaultConfig} {vaults : List VaultConfig} (hv : v ∈ vaults)
    (hid : ∀ v' ∈ vaults, v'.id = v.id → v' = v) :
    (registered [] vaults).get v.id = (newBackend v).toOption := by
  rcases hget : (registered [] vaults).get v.id with _ | b
  · rcases hnew : newBackend v with err | b
    · rfl
    · exact absurd hget (registered_ne_none hnew hv)
  · rcases registered_origin hget with hbefore | ⟨v', hv', hid', hnew⟩
    · cases hbefore
    · obtain rfl := hid v' hv' hid'
      rw [hnew]
      rfl

end VaultsSyncer
