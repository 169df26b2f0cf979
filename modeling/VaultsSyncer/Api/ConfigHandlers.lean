import VaultsSyncer.Auth.Middleware
import VaultsSyncer.Storage.ConfigStore

/-! The handlers for the stored configuration (`api/handler_config.go`). A body is what the JSON decoder
    makes of it, none where the decoder fails; a path value is the text in the URL. What is done when
    the configuration has changed is done elsewhere, in a goroutine of its own. -/

namespace VaultsSyncer

open GoStd Schemes Schemes.Prog

/-- Strips sensitive fields before sending vault config to the frontend. -/
def sanitiseVault (v : VaultConfig) : Json :=
  .object ([("id", .string v.id), ("name", .string v.name), ("type", .string v.type),
    ("endpoint", .string v.endpoint), ("timeout", .int v.timeout)] ++
    match v.auth with
    | none => []
    | some auth => [("auth", .object [("method", .string auth.method)])])

namespace ConfigHandler

variable (s : ConfigStore)

/-! ### Vaults -/

/-- Stores a new vault configuration. -/
def createVault (body : Option VaultConfig) : Db ApiReply := do
  match body with
  | none => return jsonError "invalid request body" 400
  | some v =>
    if v.id = "" then return jsonError "vault id is required" 400
    else
      match ← s.getVault v.id with
      | .error _ => return jsonError "internal error" 500
      | .ok (some _) => return jsonError "vault already exists" 409
      | .ok none =>
        match ← s.saveVault v with
        | .error _ => return jsonError "failed to save vault" 500
        | .ok () => return { jsonOK (sanitiseVault v) with status := 201 }

/-- Replaces a vault configuration; the id of the URL takes precedence. -/
def updateVault (id : String) (body : Option VaultConfig) : Db ApiReply := do
  if id = "" then return jsonError "vault_id is required" 400
  else
    match body with
    | none => return jsonError "invalid request body" 400
    | some v =>
      match ← s.getVault id with
      | .error _ => return jsonError "internal error" 500
      | .ok none => return jsonError "vault not found" 404
      | .ok (some _) =>
        match ← s.saveVault { v with id := id } with
        | .error _ => return jsonError "failed to update vault" 500
        | .ok () => return jsonOK (sanitiseVault { v with id := id })

/-- Removes a vault configuration. -/
def deleteVaultConfig (id : String) : Db ApiReply := do
  if id = "" then return jsonError "vault_id is required" 400
  else
    match ← ConfigStore.deleteVault id with
    | .error _ => return jsonError "failed to delete vault" 500
    | .ok () => return jsonOK (.object [("status", .string "deleted")])

/-! ### Syncs -/

/-- Stores a new sync configuration. -/
def createSync (body : Option SyncConfig) : Db ApiReply := do
  match body with
  | none => return jsonError "invalid request body" 400
  | some sc =>
    if sc.id = "" then return jsonError "sync id is required" 400
    else
      match ← s.getSync sc.id with
      | .error _ => return jsonError "internal error" 500
      | .ok (some _) => return jsonError "sync already exists" 409
      | .ok none =>
        match ← ConfigStore.saveSync sc with
        | .error _ => return jsonError "failed to save sync" 500
        | .ok () => return { jsonOK (SyncConfig.codec.enc sc) with status := 201 }

/-- Retrieves a single sync configuration. -/
def getSyncConfig (id : String) : Db ApiReply := do
  if id = "" then return jsonError "sync_id is required" 400
  else
    match ← s.getSync id with
    | .error _ => return jsonError "internal error" 500
    | .ok none => return jsonError "sync not found" 404
    | .ok (some sc) => return jsonOK (SyncConfig.codec.enc sc)

/-- Replaces a sync configuration. -/
def updateSync (id : String) (body : Option SyncConfig) : Db ApiReply := do
  if id = "" then return jsonError "sync_id is required" 400
  else
    match body with
    | none => return jsonError "invalid request body" 400
    | some sc =>
      match ← s.getSync id with
      | .error _ => return jsonError "internal error" 500
      | .ok none => return jsonError "sync not found" 404
      | .ok (some _) =>
        match ← ConfigStore.saveSync { sc with id := id } with
        | .error _ => return jsonError "failed to update sync" 500
        | .ok () => return jsonOK (SyncConfig.codec.enc { sc with id := id })

/-- Removes a sync configuration. -/
def deleteSyncConfig (id : String) : Db ApiReply := do
  if id = "" then return jsonError "sync_id is required" 400
  else
    match ← ConfigStore.deleteSync id with
    | .error _ => return jsonError "failed to delete sync" 500
    | .ok () => return jsonOK (.object [("status", .string "deleted")])

end ConfigHandler

/-! ### Routes -/

/-- The requests that change the stored configuration. -/
inductive ConfigRequest where
  | createVault (body : Option VaultConfig)
  | updateVault (id : String) (body : Option VaultConfig)
  | deleteVaultConfig (id : String)
  | createSync (body : Option SyncConfig)
  | updateSync (id : String) (body : Option SyncConfig)
  | deleteSyncConfig (id : String)

def ConfigRequest.program (s : ConfigStore) : ConfigRequest → Db ApiReply
  | .createVault body => ConfigHandler.createVault s body
  | .updateVault id body => ConfigHandler.updateVault s id body
  | .deleteVaultConfig id => ConfigHandler.deleteVaultConfig id
  | .createSync body => ConfigHandler.createSync s body
  | .updateSync id body => ConfigHandler.updateSync s id body
  | .deleteSyncConfig id => ConfigHandler.deleteSyncConfig id

end VaultsSyncer
