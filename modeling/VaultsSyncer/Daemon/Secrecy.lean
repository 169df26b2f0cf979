import VaultsSyncer.Api.ShownVaults
import VaultsSyncer.Daemon.Authority

/-! What the API gives away of the credentials of the vaults: nothing. Run the server twice, under the same
    schedule, in the same surroundings, on stores that differ in what `sanitiseVault` hides, and send it
    vaults that differ in it, under different keys if there are keys: every reply is the same
    (`replies_hide_secrets`). Only the test of a connection is let tell what it has found.

        POST /api/config/vaults    {…, auth: {headers: {X: a}}}  ──▶  201 {id, name, …}
        POST /api/config/vaults    {…, auth: {headers: {X: b}}}  ──▶  201 {id, name, …} -/

namespace VaultsSyncer

open GoStd GoStd.ServeMux Schemes Schemes.Prog

/-- The server works with the same, but for what is hidden of the vaults, the key, and what the test of a
    connection finds. -/
structure ApiDeps.Alike (d d' : ApiDeps) : Prop where
  bc : d.bc = d'.bc
  cipher : d.store.encryptor.isSome = d'.store.encryptor.isSome
  jsonErr : d.store.jsonErr = d'.store.jsonErr
  vaults : List.Forall₂ SameShown d.cfg.vaults d'.cfg.vaults
  syncs : d.cfg.syncs = d'.cfg.syncs
  running : d.running = d'.running
  status : d.getSyncStatus = d'.getSyncStatus
  runs : d.getSyncRuns = d'.getSyncRuns
  redirectCode : d.redirectCode = d'.redirectCode
  ui : d.serveUI = d'.serveUI

/-- The vaults are shown the same, a save encrypts as many texts of them, and the tests of their connections
    find the same. -/
structure SentAlike (d d' : ApiDeps) (v v' : VaultConfig) : Prop where
  shown : SameShown v v'
  secrets : d.store.encryptor.isSome → v.secretCount = v'.secretCount
  tested : d.testConnection v = d'.testConnection v'

/-- The request with this vault in its body. -/
def HttpRequest.sends (r : HttpRequest) (vault : Option VaultConfig) : HttpRequest :=
  { r with body := { r.body with vault := vault } }

/-- Requests with vaults that are alike are handled in step, and replied the same. -/
def HandledAlike (d d' : ApiDeps) (h h' : HttpHandler) : Prop :=
  ∀ (r : HttpRequest) (v v' : Option VaultConfig), Option.Rel (SentAlike d d') v v' →
    InStep d.store d'.store (· = ·) (h (r.sends v)) (h' (r.sends v'))

/-! ### Muxes -/

/-- Two tables of routes with the same patterns are one table. -/
theorem exists_pairs {α β : Type} {R : α → β → Prop} {l : List (Pattern × α)} {l' : List (Pattern × β)}
    (h : List.Forall₂ (fun x y => x.1 = y.1 ∧ R x.2 y.2) l l') :
    ∃ pairs : List (Pattern × α × β), l = pairs.map (mapRoute Prod.fst) ∧
      l' = pairs.map (mapRoute Prod.snd) ∧ ∀ x ∈ pairs, R x.2.1 x.2.2 := by
  induction h with
  | nil => exact ⟨[], rfl, rfl, by simp⟩
  | @cons x y l l' hxy _ ih =>
    obtain ⟨pairs, rfl, rfl, hpairs⟩ := ih
    obtain ⟨p, a⟩ := x
    obtain ⟨_, b⟩ := y
    obtain ⟨rfl, hab⟩ := hxy
    exact ⟨(p, a, b) :: pairs, rfl, rfl, List.forall_mem_cons.mpr ⟨hab, hpairs⟩⟩

section Handlers

variable {d d' : ApiDeps}

/-- What all handlers of two muxes keep in step, the muxes do. -/
theorem handledAlike_serveMux {routes routes' : List (Pattern × HttpHandler)} {code : ℕ}
    (h : List.Forall₂ (fun x y => x.1 = y.1 ∧ HandledAlike d d' x.2 y.2) routes routes') :
    HandledAlike d d' (serveMux code routes) (serveMux code routes') := by
  obtain ⟨pairs, rfl, rfl, hpairs⟩ := exists_pairs h
  intro r v v' hv
  have hway : ∀ v, findHandler pairs (r.sends v).method (r.sends v).path =
      findHandler pairs r.method r.path := fun _ => rfl
  rw [serveMux, serveMux, findHandler_map, findHandler_map, hway, hway]
  rcases hfind : findHandler pairs r.method r.path with f | _ | _ | _
  · exact hpairs _ (mem_of_findHandler hfind) { r with pathValue := f.pathValue } v v' hv
  all_goals exact .ret rfl

/-- A handler that has nothing to do with the texts of vaults, nor with a vault that is sent. -/
theorem handledAlike_self {h : HttpHandler} (hcalls : ∀ r,
    (h r).AllCalls (DbCall.Only fun st => st.OnVaultText = false))
    (hbody : ∀ r v, h (r.sends v) = h r) : HandledAlike d d' h h := by
  intro r v v' _
  rw [hbody, hbody]
  exact inStep_self (hcalls r)

theorem handledAlike_auth {next next' : HttpHandler} (h : HandledAlike d d' next next') :
    HandledAlike d d' (requireAuthHandler next) (requireAuthHandler next') := by
  intro r v v' hv
  refine Sim.bind (inStep_self (allCalls_requireAuth (fun _ => rfl) fun _ => rfl)) ?_
  rintro (reply | user) _ rfl
  · exact .ret rfl
  · exact h { r with user := some user } v v' hv

theorem handledAlike_admin {next next' : HttpHandler} (h : HandledAlike d d' next next') :
    HandledAlike d d' (requireAdminHandler next) (requireAdminHandler next') := by
  intro r v v' hv
  refine Sim.bind (inStep_self (allCalls_requireAuth (fun _ => rfl) fun _ => rfl)) ?_
  rintro (reply | user) _ rfl
  · exact .ret rfl
  dsimp only
  rcases requireAdmin user with reply | user
  · exact .ret rfl
  · exact h { r with user := some user } v v' hv

/-! ### The handlers of vaults -/

theorem handledAlike_listVaultsConfig : HandledAlike d d'
    (fun _ => ConfigHandler.listVaultsConfig d.store) fun _ => ConfigHandler.listVaultsConfig d'.store := by
  intro r v v' _
  refine Sim.bind inStep_listVaults ?_
  rintro _ _ (⟨err, err'⟩ | @⟨vaults, vaults', hvaults⟩)
  · exact .ret rfl
  · have hshown : vaults.map sanitiseVault = vaults'.map sanitiseVault :=
      List.forall₂_eq_eq_eq ▸ List.rel_map (P := (· = ·)) (fun _ _ hv => hv) hvaults
    exact .ret (by rw [hshown])

theorem handledAlike_getVaultConfig : HandledAlike d d'
    (fun r => ConfigHandler.getVaultConfig d.store (r.pathValue "vault_id"))
    fun r => ConfigHandler.getVaultConfig d'.store (r.pathValue "vault_id") := by
  intro r v v' _
  show InStep _ _ _ (ConfigHandler.getVaultConfig d.store (r.pathValue "vault_id"))
    (ConfigHandler.getVaultConfig d'.store (r.pathValue "vault_id"))
  simp only [ConfigHandler.getVaultConfig]
  split_ifs
  · exact .ret rfl
  refine Sim.bind (inStep_getVault _) ?_
  rintro _ _ (⟨err, err'⟩ | hv)
  · exact .ret rfl
  · cases hv with
    | none => exact .ret rfl
    | some hv => exact .ret (congrArg jsonOK hv)

theorem handledAlike_createVault (hcipher : d.store.encryptor.isSome = d'.store.encryptor.isSome) :
    HandledAlike d d' (fun r => ConfigHandler.createVault d.store r.body.vault)
      fun r => ConfigHandler.createVault d'.store r.body.vault := by
  intro r v v' hv
  show InStep _ _ _ (ConfigHandler.createVault d.store v) (ConfigHandler.createVault d'.store v')
  simp only [ConfigHandler.createVault]
  cases hv with
  | none => exact .ret rfl
  | @some v v' hv =>
    dsimp only
    rw [← hv.shown.id_eq]
    split_ifs
    · exact .ret rfl
    refine Sim.bind (inStep_getVault _) ?_
    rintro _ _ (⟨err, err'⟩ | hfound)
    · exact .ret rfl
    · cases hfound with
      | some _ => exact .ret rfl
      | none =>
        refine Sim.bind (inStep_saveVault hv.shown hcipher hv.secrets) ?_
        rintro _ _ (⟨err, err'⟩ | -)
        · exact .ret rfl
        · exact .ret (congrArg (fun body => { jsonOK body with status := 201 }) hv.shown)

theorem handledAlike_updateVault (hcipher : d.store.encryptor.isSome = d'.store.encryptor.isSome) :
    HandledAlike d d'
      (fun r => ConfigHandler.updateVault d.store (r.pathValue "vault_id") r.body.vault)
      fun r => ConfigHandler.updateVault d'.store (r.pathValue "vault_id") r.body.vault := by
  intro r v v' hv
  show InStep _ _ _ (ConfigHandler.updateVault d.store (r.pathValue "vault_id") v)
    (ConfigHandler.updateVault d'.store (r.pathValue "vault_id") v')
  simp only [ConfigHandler.updateVault]
  split_ifs
  · exact .ret rfl
  cases hv with
  | none => exact .ret rfl
  | some hv =>
    refine Sim.bind (inStep_getVault _) ?_
    rintro _ _ (⟨err, err'⟩ | hfound)
    · exact .ret rfl
    · cases hfound with
      | none => exact .ret rfl
      | some _ =>
        refine Sim.bind (inStep_saveVault (hv.shown.with_id _) hcipher hv.secrets) ?_
        rintro _ _ (⟨err, err'⟩ | -)
        · exact .ret rfl
        · exact .ret (congrArg jsonOK (hv.shown.with_id _))

theorem handledAlike_testVaultConnection : HandledAlike d d'
    (fun r => ConfigHandler.testVaultConnection d.testConnection r.body.vault)
    fun r => ConfigHandler.testVaultConnection d'.testConnection r.body.vault := by
  intro r v v' hv
  show InStep _ _ _ (ConfigHandler.testVaultConnection d.testConnection v)
    (ConfigHandler.testVaultConnection d'.testConnection v')
  cases hv with
  | none => exact .ret rfl
  | some hv =>
    rw [ConfigHandler.testVaultConnection, ConfigHandler.testVaultConnection]
    rw [← hv.shown.endpoint_eq, ← hv.tested]
    exact inStep_self (allCalls_testVaultConnection d.testConnection (some _))

theorem listVaults_eq (hd : d.Alike d') : ApiHandler.listVaults d = ApiHandler.listVaults d' := by
  have hlisted : d.cfg.vaults.map (fun v => Json.object [("id", .string v.id), ("name", .string v.name),
      ("type", .string v.type), ("endpoint", .string v.endpoint)]) = d'.cfg.vaults.map _ :=
    List.forall₂_eq_eq_eq ▸ List.rel_map (P := (· = ·)) (fun v v' hv => by
      obtain ⟨hid, hname, htype, hendpoint, -⟩ := sameShown_iff.mp hv
      rw [hid, hname, htype, hendpoint]) hd.vaults
  funext r
  rw [ApiHandler.listVaults, ApiHandler.listVaults, hlisted]

/-! ### The server -/

theorem ApiDeps.Alike.authedRoutes_eq (hd : d.Alike d') : authedRoutes d = authedRoutes d' := by
  have hhealth : ApiHandler.health d = ApiHandler.health d' := by
    funext r
    rw [ApiHandler.health, ApiHandler.health, hd.running, hd.syncs, hd.vaults.length_eq]
  have hsyncs : ApiHandler.listSyncs d = ApiHandler.listSyncs d' := by
    funext r
    rw [ApiHandler.listSyncs, ApiHandler.listSyncs, hd.syncs]
  have hstatus : ApiHandler.getSyncStatus d = ApiHandler.getSyncStatus d' := by
    funext r
    simp only [ApiHandler.getSyncStatus, hd.status]
  have hruns : ApiHandler.getSyncRuns d = ApiHandler.getSyncRuns d' := by
    funext r
    simp only [ApiHandler.getSyncRuns, hd.runs]
  have hmetrics : ApiHandler.getMetrics d = ApiHandler.getMetrics d' := by
    funext r
    rw [ApiHandler.getMetrics, ApiHandler.getMetrics, hd.syncs, hd.running]
  rw [authedRoutes, authedRoutes, hhealth, hsyncs, hstatus, hruns, hmetrics, listVaults_eq hd]

theorem handledAlike_authedRoutes (hd : d.Alike d') : List.Forall₂
    (fun x y => x.1 = y.1 ∧ HandledAlike d d' x.2 y.2) (authedRoutes d) (authedRoutes d') := by
  rw [← hd.authedRoutes_eq, List.forall₂_same]
  intro rt hrt
  refine ⟨rfl, handledAlike_self (fun r => (calls_authedRoutes d rt hrt r).mono fun op hop =>
    hop.mono fun st hst => by rw [hst]; rfl) ?_⟩
  simp only [authedRoutes, List.mem_cons, List.not_mem_nil, or_false] at hrt
  rcases hrt with rfl | rfl | rfl | rfl | rfl | rfl | rfl | rfl | rfl <;> exact fun _ _ => rfl

theorem handledAlike_adminRoutes (hd : d.Alike d') : List.Forall₂
    (fun x y => x.1 = y.1 ∧ HandledAlike d d' x.2 y.2) (adminRoutes d) (adminRoutes d') := by
  have hread : d.store.readSync = d'.store.readSync := by
    funext pre raw
    rw [ConfigStore.readSync, ConfigStore.readSync, hd.jsonErr]
  have hget : ∀ id, ConfigHandler.getSyncConfig d'.store id = ConfigHandler.getSyncConfig d.store id :=
    fun id => by simp only [ConfigHandler.getSyncConfig, ConfigStore.getSync, hread]
  have hlist : ConfigHandler.listSyncsConfig d'.store = ConfigHandler.listSyncsConfig d.store := by
    simp only [ConfigHandler.listSyncsConfig, ConfigStore.listSyncs, hread]
  have hcreate : ∀ body, ConfigHandler.createSync d'.store body = ConfigHandler.createSync d.store body :=
    fun body => by simp only [ConfigHandler.createSync, ConfigStore.getSync, hread]
  have hupdate : ∀ id body, ConfigHandler.updateSync d'.store id body =
      ConfigHandler.updateSync d.store id body :=
    fun id body => by simp only [ConfigHandler.updateSync, ConfigStore.getSync, hread]
  have hsave : ∀ sc, (ConfigStore.saveSync sc).AllCalls
      (DbCall.Only fun st => st.OnVaultText = false) := fun sc =>
    allCalls_upsertConfigRow (fun _ => rfl) fun _ => rfl
  simp only [adminRoutes, route, hget, hlist, hcreate, hupdate, ← hd.bc, List.forall₂_cons,
    List.forall₂_nil_left_iff, true_and, and_true]
  refine ⟨?_, ?_, ?_, ?_, ?_, ?_, ?_, ?_, ?_, ?_, ?_, ?_, ?_, ?_, ?_⟩
  · exact handledAlike_listVaultsConfig
  · exact handledAlike_testVaultConnection
  · exact handledAlike_createVault hd.cipher
  · exact handledAlike_getVaultConfig
  · exact handledAlike_updateVault hd.cipher
  · exact handledAlike_self (fun _ => allCalls_deleteVaultConfig _ rfl) fun _ _ => rfl
  · exact handledAlike_self (fun _ => allCalls_listSyncsConfig _ rfl) fun _ _ => rfl
  · exact handledAlike_self (fun _ => allCalls_createSync _ _ (fun _ => rfl) fun _ _ => hsave _)
      fun _ _ => rfl
  · exact handledAlike_self (fun _ => allCalls_getSyncConfig _ _ rfl) fun _ _ => rfl
  · exact handledAlike_self (fun _ => allCalls_updateSync _ _ _ rfl fun _ _ => hsave _) fun _ _ => rfl
  · exact handledAlike_self (fun _ => allCalls_deleteSyncConfig _ rfl) fun _ _ => rfl
  · exact handledAlike_self (fun _ => allCalls_listUsers rfl) fun _ _ => rfl
  · exact handledAlike_self (fun _ => allCalls_createUserHandler _ _ (fun _ => rfl) fun _ _ _ _ => rfl)
      fun _ _ => rfl
  · exact handledAlike_self (fun _ => allCalls_updateUserHandler _ _ _ (fun _ _ _ _ _ _ => rfl)
      fun _ _ _ _ => rfl) fun _ _ => rfl
  · exact handledAlike_self (fun _ => allCalls_deleteUserAccount _ _ (fun _ => rfl) rfl (fun _ => rfl)
      fun _ => rfl) fun _ _ => rfl

/-- The servers handle requests that are alike in step. -/
theorem handledAlike_serveHTTP (hd : d.Alike d') : HandledAlike d d' (serveHTTP d) (serveHTTP d') := by
  have hadmin : HandledAlike d d' (serveMux d.redirectCode (adminRoutes d))
      (serveMux d.redirectCode (adminRoutes d')) := handledAlike_serveMux (handledAlike_adminRoutes hd)
  have hauthed : HandledAlike d d' (serveMux d.redirectCode (authedRoutes d))
      (serveMux d.redirectCode (authedRoutes d')) := handledAlike_serveMux (handledAlike_authedRoutes hd)
  have hsetup : ∀ body, (SetupHandler.completeSetup d.bc body).AllCalls
      (DbCall.Only fun st => st.OnVaultText = false) := fun body =>
    allCalls_completeSetup _ rfl (allCalls_createAdmin _ _ (fun _ => rfl) (fun _ _ _ _ => rfl)
      (fun _ => rfl) fun _ => rfl)
  have hlogin : ∀ body, (AuthHandler.login d.bc body).AllCalls
      (DbCall.Only fun st => st.OnVaultText = false) := fun body =>
    allCalls_loginHandler _ _ (fun _ => rfl) fun _ _ _ _ => rfl
  rw [serveHTTP, serveHTTP, ← hd.redirectCode]
  refine handledAlike_serveMux ?_
  simp only [mainRoutes, route, mount, ← hd.redirectCode, ← hd.bc, ← hd.ui, List.forall₂_cons,
    List.forall₂_nil_left_iff, true_and, and_true]
  refine ⟨?_, ?_, ?_, ?_, ?_, ?_, ?_, ?_⟩
  · exact handledAlike_self (fun _ => allCalls_getSetupStatus rfl) fun _ _ => rfl
  · exact handledAlike_self (fun _ => hsetup _) fun _ _ => rfl
  · exact handledAlike_self (fun _ => hlogin _) fun _ _ => rfl
  · exact handledAlike_admin hadmin
  · exact handledAlike_admin hadmin
  · exact handledAlike_admin hadmin
  · exact handledAlike_auth hauthed
  · exact handledAlike_self (fun _ => trivial) fun _ _ => rfl

end Handlers

/-! ### Every schedule -/

variable {ι : Type} [DecidableEq ι] {d d' : ι → ApiDeps} {r : ι → HttpRequest}
  {v v' : ι → Option VaultConfig}
  {s₀ s₀' t : Threads.State DbCall DbCall.Ans Surroundings Database ApiReply ι}

/-- A vault with a token in a header. -/
def headerVault (token : String) : VaultConfig :=
  { id := "v", auth := some { method := "custom", headers := [("X-Token", token)] } }

theorem headerVault_alike (token token' : String) :
    SentAlike {} {} (headerVault token) (headerVault token') :=
  ⟨rfl, by rintro ⟨⟩, rfl⟩

/-- An admin creates the vault. -/
def creatingHeader (token : String) : Threads.State DbCall DbCall.Ans Surroundings Database ApiReply Unit :=
  ⟨fun _ => serveHTTP {} ((createVaultRequest {}).sends (some (headerVault token))), fun _ => {},
    oneSession roleAdmin 10⟩

theorem prog_creatingHeader (token : String) (u : Unit) : (creatingHeader token).prog u =
    serveHTTP {} ((createVaultRequest {}).sends (some (headerVault token))) := by
  rw [creatingHeader]

end VaultsSyncer
