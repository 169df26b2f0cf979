import VaultsSyncer.Api.Accounts
import VaultsSyncer.Api.ConfigHandlers
import VaultsSyncer.Config.Loader

/-! The handlers behind the routes: those that only read (`api/handler.go`, and the rest of
    `api/handler_config.go`, `api/handler_auth.go`, `api/handler_users.go`, `api/handler_setup.go`), and
    how each handler takes what it needs from the request. -/

namespace VaultsSyncer

open GoStd Schemes Schemes.Prog

/-- What the JSON decoder makes of a body for each of the payloads. -/
structure RequestBody where
  login : Option LoginRequest := none
  setup : Option SetupRequest := none
  createUser : Option CreateUserRequest := none
  updateUser : Option UpdateUserRequest := none
  vault : Option VaultConfig := none
  sync : Option SyncConfig := none

/-- A request: `path` is the escaped path, `limit` the query parameter, `user` the value in the
    context, `pathValue` what the mux has set. -/
structure HttpRequest where
  method : String
  path : String
  headers : AuthHeaders := {}
  limit : String := ""
  body : RequestBody := {}
  user : Option User := none
  pathValue : String → String := fun _ => ""

abbrev HttpHandler := HttpRequest → Db ApiReply

/-- What the handlers work with: bcrypt, the config store, the running configuration, what the runner
    and the sync tables answer, the test of a vault, the status of a
    redirect, and the embedded files. -/
structure ApiDeps where
  bc : Bcrypt := plainBcrypt
  store : ConfigStore := {}
  cfg : Config := {}
  running : Bool := false
  getSyncStatus : String → Except GoError Json := fun _ => .ok .null
  getSyncRuns : String → ℤ → Except GoError Json := fun _ _ => .ok .null
  testConnection : VaultConfig → Except GoError Unit := fun _ => .ok ()
  redirectCode : ℕ := 307
  serveUI : String → ApiReply := fun _ => ⟨404, .string "404 page not found\n"⟩

/-- `http.Error`. -/
def httpError (message : String) (code : ℕ) : ApiReply := ⟨code, .string (message ++ "\n")⟩

/-- A slice that is nil where it is empty. -/
def jsonSlice (elems : List Json) : Json := if elems = [] then .null else .array elems

/-! ### Runtime endpoints -/

namespace ApiHandler

variable (d : ApiDeps)

/-- Handles health check requests. -/
def health : HttpHandler := fun _ =>
  return jsonOK (.object [("status", .string "healthy"), ("running", .bool d.running),
    ("syncs", .int d.cfg.syncs.length), ("vaults", .int d.cfg.vaults.length)])

/-- Handles status requests for a specific sync. -/
def getSyncStatus : HttpHandler := fun r => do
  let syncID := r.pathValue "sync_id"
  if syncID = "" then return httpError "sync_id is required" 400
  else
    match d.getSyncStatus syncID with
    | .error err => return httpError ("failed to get status: " ++ err.text) 500
    | .ok status => return jsonOK status

/-- Handles listing all syncs. -/
def listSyncs : HttpHandler := fun _ =>
  return jsonOK (.object [("syncs", .array (d.cfg.syncs.map fun syncCfg =>
    .object [("id", .string syncCfg.id), ("source", .string syncCfg.source),
      ("targets", .array (syncCfg.targets.map .string)), ("type", .string syncCfg.syncType),
      ("schedule", .string syncCfg.schedule), ("enabled", .bool syncCfg.isEnabled)]))])

/-- Handles manual sync execution; the sync itself runs in a goroutine of its own. -/
def executeSync : HttpHandler := fun r => do
  if r.method ≠ "POST" then return httpError "method not allowed" 405
  else
    let syncID := r.pathValue "sync_id"
    if syncID = "" then return httpError "sync_id is required" 400
    else return ⟨202, .object [("sync_id", .string syncID), ("status", .string "executing")]⟩

/-- Handles Prometheus-style metrics requests. -/
def getMetrics : HttpHandler := fun _ =>
  return jsonOK (.string (
    "# HELP syncs_configured Total number of syncs configured\n" ++
    "# TYPE syncs_configured gauge\nsyncs_configured " ++ toString d.cfg.syncs.length ++ "\n" ++
    "# HELP syncs_enabled Total number of enabled syncs\n" ++
    "# TYPE syncs_enabled gauge\n" ++
    "syncs_enabled " ++ toString (d.cfg.syncs.countP SyncConfig.isEnabled) ++ "\n" ++
    "# HELP runner_running Whether the sync runner is running\n" ++
    "# TYPE runner_running gauge\n" ++
    "runner_running " ++ (if d.running then "1" else "0") ++ "\n"))

/-- Handles listing all configured vaults. -/
def listVaults : HttpHandler := fun _ =>
  return jsonOK (.object [("vaults", .array (d.cfg.vaults.map fun v =>
    .object [("id", .string v.id), ("name", .string v.name), ("type", .string v.type),
      ("endpoint", .string v.endpoint)]))])

/-- Handles retrieving the run history for a specific sync. -/
def getSyncRuns : HttpHandler := fun r => do
  let syncID := r.pathValue "sync_id"
  if syncID = "" then return httpError "sync_id is required" 400
  else
    let limit := ((parseInt64 r.limit).filter fun l => l > 0).getD 20
    match d.getSyncRuns syncID limit with
    | .error err => return httpError ("failed to get runs: " ++ err.text) 500
    | .ok runs => return jsonOK (.object [("sync_id", .string syncID), ("runs", runs)])

end ApiHandler

/-! ### Configuration -/

namespace ConfigHandler

/-- Lists all stored vault configurations. -/
def listVaultsConfig (s : ConfigStore) : Db ApiReply := do
  match ← s.listVaults with
  | .error _ => return jsonError "failed to list vaults" 500
  | .ok vaults => return jsonOK (.object [("vaults", .array (vaults.map sanitiseVault))])

/-- Retrieves a single vault configuration. -/
def getVaultConfig (s : ConfigStore) (id : String) : Db ApiReply := do
  if id = "" then return jsonError "vault_id is required" 400
  else
    match ← s.getVault id with
    | .error _ => return jsonError "internal error" 500
    | .ok none => return jsonError "vault not found" 404
    | .ok (some v) => return jsonOK (sanitiseVault v)

/-- Lists all stored sync configurations. -/
def listSyncsConfig (s : ConfigStore) : Db ApiReply := do
  match ← s.listSyncs with
  | .error _ => return jsonError "failed to list syncs" 500
  | .ok syncs =>
    return jsonOK (.object [("syncs", jsonSlice (syncs.map fun sc => SyncConfig.codec.enc sc))])

/-- Verifies connectivity of a vault that is not stored. -/
def testVaultConnection (test : VaultConfig → Except GoError Unit) (body : Option VaultConfig) :
    Db ApiReply := do
  match body with
  | none => return jsonError "invalid request body" 400
  | some v =>
    if v.endpoint = "" then return jsonError "endpoint is required" 400
    else
      match test v with
      | .error err =>
        return jsonOK (.object [("ok", .bool false), ("message", .string err.text)])
      | .ok () =>
        return jsonOK (.object [("ok", .bool true), ("message", .string "Connection successful")])

end ConfigHandler

/-! ### Accounts -/

/-- Returns the current authenticated user's info. -/
def AuthHandler.me (user : Option User) : Db ApiReply := do
  match user with
  | none => return jsonError "unauthorized" 401
  | some user =>
    return jsonOK (.object [("id", .int user.id), ("username", .string user.username),
      ("role", .string user.role), ("created_at", .int user.createdAt)])

/-- Returns all users with password hashes omitted. -/
def Service.listUsers : Db (Except GoError (List User)) := do
  return (← UserStore.listUsers).map fun users => users.map fun u => { u with passwordHash := "" }

/-- Returns all users. -/
def UsersHandler.listUsers : Db ApiReply := do
  match ← Service.listUsers with
  | .error _ => return jsonError "failed to list users" 500
  | .ok users => return jsonOK (.object [("users", jsonSlice (users.map User.json))])

/-- Reports whether first-run setup has been completed. -/
def SetupHandler.getSetupStatus : Db ApiReply := do
  match ← SettingsStore.isSetupComplete with
  | .error _ => return jsonError "internal error" 500
  | .ok complete => return jsonOK (.object [("complete", .bool complete)])

end VaultsSyncer
