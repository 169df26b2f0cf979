import VaultsSyncer.Api.Requests
import VaultsSyncer.Api.Setup
import VaultsSyncer.Storage.Configuration

/-! The statements that the handlers can make, whatever is answered: a predicate on statements holds of
    all calls of a handler if it holds of those named here.

        PUT /api/users/{id}    UPDATE users SET password_hash    if the body has a password
                               UPDATE users SET role             if the body has a role -/

namespace VaultsSyncer

open GoStd Schemes Schemes.Prog

variable {p : Stmt → Prop} (bc : Bcrypt)

/-! ### Accounts -/

theorem allCalls_loginHandler (body : Option LoginRequest)
    (hselect : ∀ username, p (.selectUserByUsername username))
    (hinsert : ∀ id token e t, p (.insertSession id token e t)) :
    (AuthHandler.login bc body).AllCalls (DbCall.Only p) := by
  rcases body with _ | req
  · trivial
  simp only [AuthHandler.login]
  split_ifs
  · trivial
  · refine (allCalls_login bc (hselect _) hinsert).bind ?_
    rintro (err | token)
    · dsimp only
      split_ifs <;> trivial
    · trivial

theorem allCalls_logoutHandler {r : AuthHeaders} (hdelete : p (.deleteSession (extractToken r))) :
    (AuthHandler.logout r).AllCalls (DbCall.Only p) := by
  simp only [AuthHandler.logout]
  split_ifs
  · exact (allCalls_logout hdelete).bind fun _ => trivial
  · trivial

theorem allCalls_createUserHandler (body : Option CreateUserRequest)
    (hselect : ∀ username, p (.selectUserByUsername username))
    (hinsert : ∀ req, body = some req → ∀ hash t,
      p (.insertUser req.username hash (if req.role = "" then roleUser else req.role) t)) :
    (UsersHandler.createUser bc body).AllCalls (DbCall.Only p) := by
  rcases body with _ | req
  · trivial
  simp only [UsersHandler.createUser]
  have hcall := hinsert req rfl
  generalize (if req.role = "" then roleUser else req.role) = role at hcall ⊢
  split_ifs
  · trivial
  · trivial
  · trivial
  · refine (allCalls_serviceCreateUser bc (hselect _) hcall).bind ?_
    rintro (err | user)
    · dsimp only
      split_ifs <;> trivial
    · trivial

theorem allCalls_updateUserHandler (userID : String) (body : Option UpdateUserRequest)
    (hpassword : ∀ req, body = some req → req.password ≠ "" → ∀ id hash t,
      p (.updateUserPassword id hash t))
    (hrole : ∀ req, body = some req → ∀ id t, p (.updateUserRole id req.role t)) :
    (UsersHandler.updateUser bc userID body).AllCalls (DbCall.Only p) := by
  simp only [UsersHandler.updateUser]
  rcases parseInt64 userID with _ | id
  · trivial
  rcases body with _ | req
  · trivial
  have hsecond : (UsersHandler.updateRole id req.role).AllCalls (DbCall.Only p) := by
    simp only [UsersHandler.updateRole]
    split_ifs
    · trivial
    · trivial
    · refine (allCalls_changeRole fun t => hrole req rfl id t).bind ?_
      rintro (err | ⟨⟩) <;> trivial
  refine AllCalls.bind ?_ ?_
  · simp only [UsersHandler.updatePassword]
    split_ifs with hempty
    · trivial
    · trivial
    · refine (allCalls_changePassword bc fun hash t => hpassword req rfl hempty id hash t).bind ?_
      rintro (err | ⟨⟩) <;> trivial
  · rintro (_ | reply)
    · refine hsecond.bind ?_
      rintro (_ | reply) <;> trivial
    · trivial

theorem allCalls_deleteUserAccount (caller : Option User) (userID : String)
    (hselect : ∀ id, p (.selectUserByID id)) (hlist : p .selectUsers)
    (hsessions : ∀ id, p (.deleteSessionsOf id)) (huser : ∀ id, p (.deleteUser id)) :
    (UsersHandler.deleteUserAccount caller userID).AllCalls (DbCall.Only p) := by
  simp only [UsersHandler.deleteUserAccount]
  rcases parseInt64 userID with _ | id
  · trivial
  dsimp only
  split_ifs
  · trivial
  · refine (allCalls_serviceDeleteUser (hselect id) hlist (hsessions id) (huser id)).bind ?_
    rintro (err | ⟨⟩) <;> trivial

theorem allCalls_listUsers (h : p .selectUsers) : UsersHandler.listUsers.AllCalls (DbCall.Only p) := by
  refine AllCalls.bind (AllCalls.map (AllCalls.map ?_ _) _) ?_
  · exact allCalls_exec h
  · rintro (err | users) <;> trivial

/-! ### First-run setup -/

theorem allCalls_getSetupStatus (h : p (.selectSetting "setup_complete")) :
    SetupHandler.getSetupStatus.AllCalls (DbCall.Only p) := by
  refine AllCalls.bind (AllCalls.map ?_ _) ?_
  · exact allCalls_exec h
  · rintro (err | complete) <;> trivial

theorem allCalls_createAdmin (body : Option SetupRequest)
    (hselect : ∀ username, p (.selectUserByUsername username))
    (hinsert : ∀ username, AcceptableSetup body username → ∀ hash t,
      p (.insertUser username hash roleAdmin t))
    (hupdate : ∀ t, p (.updateSetting "setup_complete" "true" t))
    (hmark : ∀ t, p (.insertSetting "setup_complete" "true" t)) :
    (SetupHandler.createAdmin bc body).AllCalls (DbCall.Only p) := by
  rcases body with _ | req
  · trivial
  simp only [SetupHandler.createAdmin]
  split_ifs with hempty hshort
  · trivial
  · trivial
  rw [not_or] at hempty
  refine (allCalls_setupAdmin bc (hselect _) fun hle hash t =>
    hinsert _ ⟨req, rfl, rfl, hempty.1, not_lt.mp hshort, hle⟩ hash t).bind ?_
  rintro (err | ⟨⟩)
  · dsimp only
    split_ifs <;> trivial
  · refine (allCalls_setSetting hupdate hmark).bind ?_
    rintro (err | ⟨⟩) <;> trivial

theorem allCalls_completeSetup {body : Option SetupRequest} (h : p (.selectSetting "setup_complete"))
    (hadmin : (SetupHandler.createAdmin bc body).AllCalls (DbCall.Only p)) :
    (SetupHandler.completeSetup bc body).AllCalls (DbCall.Only p) := by
  refine ((allCalls_getSetting h).map _).bind ?_
  rintro (err | (_ | _))
  · trivial
  · exact hadmin
  · trivial

/-! ### Configuration -/

variable (s : ConfigStore)

theorem allCalls_listVaultsConfig (h : p (.selectConfigs .vaults)) :
    (ConfigHandler.listVaultsConfig s).AllCalls (DbCall.Only p) := by
  refine AllCalls.bind (AllCalls.bind (allCalls_exec h) ?_) ?_
  · rintro (err | rows) <;> trivial
  · rintro (err | vaults) <;> trivial

theorem allCalls_listSyncsConfig (h : p (.selectConfigs .syncs)) :
    (ConfigHandler.listSyncsConfig s).AllCalls (DbCall.Only p) := by
  refine AllCalls.bind (AllCalls.bind (allCalls_exec h) ?_) ?_
  · rintro (err | rows) <;> trivial
  · rintro (err | syncs) <;> trivial

theorem allCalls_getVaultConfig (id : String) (h : p (.selectConfig .vaults id)) :
    (ConfigHandler.getVaultConfig s id).AllCalls (DbCall.Only p) := by
  simp only [ConfigHandler.getVaultConfig]
  split_ifs
  · trivial
  · refine AllCalls.bind (allCalls_getVault h) ?_
    rintro (err | (_ | v)) <;> trivial

theorem allCalls_getSyncConfig (id : String) (h : p (.selectConfig .syncs id)) :
    (ConfigHandler.getSyncConfig s id).AllCalls (DbCall.Only p) := by
  simp only [ConfigHandler.getSyncConfig]
  split_ifs
  · trivial
  · refine AllCalls.bind (allCalls_getSync h) ?_
    rintro (err | (_ | sc)) <;> trivial

theorem allCalls_createSync (body : Option SyncConfig) (hselect : ∀ id, p (.selectConfig .syncs id))
    (hsave : ∀ sc, body = some sc → (ConfigStore.saveSync sc).AllCalls (DbCall.Only p)) :
    (ConfigHandler.createSync s body).AllCalls (DbCall.Only p) := by
  rcases body with _ | sc
  · trivial
  simp only [ConfigHandler.createSync]
  split_ifs
  · trivial
  refine AllCalls.bind (allCalls_getSync (hselect _)) ?_
  rintro (err | (_ | existing))
  · trivial
  · refine (hsave sc rfl).bind ?_
    rintro (err | ⟨⟩) <;> trivial
  · trivial

theorem allCalls_updateSync (id : String) (body : Option SyncConfig)
    (hselect : p (.selectConfig .syncs id))
    (hsave : ∀ sc, body = some sc → (ConfigStore.saveSync { sc with id := id }).AllCalls (DbCall.Only p)) :
    (ConfigHandler.updateSync s id body).AllCalls (DbCall.Only p) := by
  simp only [ConfigHandler.updateSync]
  split_ifs
  · trivial
  rcases body with _ | sc
  · trivial
  refine AllCalls.bind (allCalls_getSync hselect) ?_
  rintro (err | (_ | existing))
  · trivial
  · trivial
  · refine (hsave sc rfl).bind ?_
    rintro (err | ⟨⟩) <;> trivial

theorem allCalls_deleteSyncConfig (id : String) (h : p (.deleteConfig .syncs id)) :
    (ConfigHandler.deleteSyncConfig id).AllCalls (DbCall.Only p) := by
  simp only [ConfigHandler.deleteSyncConfig]
  split_ifs
  · trivial
  · refine AllCalls.bind (allCalls_exec h) ?_
    rintro (err | ⟨⟩) <;> trivial

theorem allCalls_deleteVaultConfig (id : String) (h : p (.deleteConfig .vaults id)) :
    (ConfigHandler.deleteVaultConfig id).AllCalls (DbCall.Only p) := by
  simp only [ConfigHandler.deleteVaultConfig]
  split_ifs
  · trivial
  · refine AllCalls.bind (allCalls_exec h) ?_
    rintro (err | ⟨⟩) <;> trivial

/-- The test of a vault makes no call. -/
theorem allCalls_testVaultConnection {P : DbCall → Prop} (test : VaultConfig → Except GoError Unit)
    (body : Option VaultConfig) : (ConfigHandler.testVaultConnection test body).AllCalls P := by
  rcases body with _ | v
  · trivial
  simp only [ConfigHandler.testVaultConnection]
  split_ifs
  · trivial
  · rcases test v with err | ⟨⟩ <;> trivial

end VaultsSyncer
