import VaultsSyncer.Api.Effects
import VaultsSyncer.Api.StoredConfig
import VaultsSyncer.Daemon.Routes
import VaultsSyncer.Storage.SealedConfig

/-! Who may change what. The server handles any number of requests at a time, and each makes its
    statements one by one, so what a middleware has checked may be different by the time the handler
    writes. What holds in every interleaving is that a write is preceded by the evidence for it: the
    session and the admin at some moment before, the credentials, or a store that is not set up
    (`writes_entitled`).

        request i    now   SELECT session   SELECT user        UPDATE users
        others                       ⋯                 ⋯ -/

namespace VaultsSyncer

open GoStd GoStd.ServeMux Schemes Schemes.Prog

/-- A call of a request, and when it was answered. -/
abbrev DbMoment := Moment DbCall Surroundings Database

/-! ### Evidence -/

/-- The mounts behind `requireAdmin`. -/
def adminMounts : List Pattern :=
  [{ segments := [.lit "api", .lit "config"], multi := true },
    { segments := [.lit "api", .lit "users"] },
    { segments := [.lit "api", .lit "users"], multi := true }]

/-- The mounts behind `requireAuth`. -/
def authedMounts : List Pattern := { segments := [.lit "api"], multi := true } :: adminMounts

/-- The request goes to one of these mounts. -/
def HttpRequest.GoesTo (r : HttpRequest) (d : ApiDeps) (mounts : List Pattern) : Prop :=
  ∃ f, findHandler (mainRoutes d) r.method r.path = .handler f ∧ f.pattern ∈ mounts

/-- At some moment the token had a session, and at some moment its user was this one; the clock was
    read for it. -/
def Vouched (seen : Set DbMoment) (token : String) (user : User) : Prop :=
  token ≠ "" ∧ ∃ m₀ ∈ seen, ∃ m₁ ∈ seen, ∃ m₂ ∈ seen, ∃ sess, m₀.op = .now ∧
    m₁.state.sessions.lookup token = some sess ∧ m₀.env.clock.head < sess.expiresAt ∧
    m₂.state.users.lookup sess.userID = some user

/-- A statement on users or on the stored configuration, as the body asks for it. -/
def Stmt.AskedBy (s : ConfigStore) (body : RequestBody) : Stmt → Prop
  | .insertUser username _ role _ => ∃ req, body.createUser = some req ∧ req.username = username ∧
      role = if req.role = "" then roleUser else req.role
  | .updateUserPassword _ _ _ => ∃ req, body.updateUser = some req ∧ req.password ≠ ""
  | .updateUserRole _ role _ => ∃ req, body.updateUser = some req ∧ req.role = role
  | .updateConfig t id json _ | .insertConfig t id json _ => s.AskedRow (body.vault, body.sync) t id json
  | .deleteUser _ | .deleteSessionsOf _ | .deleteConfig _ _ => True
  | _ => False

/-- What entitles a request to a statement. -/
inductive Entitled (d : ApiDeps) (r : HttpRequest) (seen : Set DbMoment) : Stmt → Prop
  | admin {user s} (hroute : r.GoesTo d adminMounts) (hcaller : Vouched seen (extractToken r.headers) user)
      (hadmin : user.role = roleAdmin) (hs : s.AskedBy d.store r.body) : Entitled d r seen s
  | ownSession {user} (hroute : r.GoesTo d authedMounts) (hadmin : ¬r.GoesTo d adminMounts)
      (hcaller : Vouched seen (extractToken r.headers) user) :
      Entitled d r seen (.deleteSession (extractToken r.headers))
  | credentials {req m m' user bytes expiresAt now} (hroute : ¬r.GoesTo d authedMounts)
      (hbody : r.body.login = some req) (hm : m ∈ seen)
      (huser : m.state.users.byUsername req.username = some user)
      (hpassword : d.bc.compareHashAndPassword user.passwordHash req.password = true)
      (hm' : m' ∈ seen) (hdrawn : m'.env.random.head = .ok bytes) :
      Entitled d r seen (.insertSession user.id (hexString (takeBytes 32 bytes)) expiresAt now)
  | firstAdmin {m username hash now} (hroute : ¬r.GoesTo d authedMounts) (hm : m ∈ seen)
      (hopen : m.state.appSettings.lookup "setup_complete" = none)
      (hbody : AcceptableSetup r.body.setup username) :
      Entitled d r seen (.insertUser username hash roleAdmin now)
  | closing {m s} (hroute : ¬r.GoesTo d authedMounts) (hm : m ∈ seen)
      (hopen : m.state.appSettings.lookup "setup_complete" = none)
      (hs : (∃ t, s = .updateSetting "setup_complete" "true" t) ∨
        ∃ t, s = .insertSetting "setup_complete" "true" t) : Entitled d r seen s

variable {d : ApiDeps} {bc : Bcrypt} {r : HttpRequest} {seen seen' : Set DbMoment} {token : String}
  {user : User} {s : Stmt}

theorem Vouched.mono (h : Vouched seen token user) (hsub : seen ⊆ seen') : Vouched seen' token user := by
  obtain ⟨htoken, m₀, h₀, m₁, h₁, m₂, h₂, hsess⟩ := h
  exact ⟨htoken, m₀, hsub h₀, m₁, hsub h₁, m₂, hsub h₂, hsess⟩

theorem Entitled.mono (h : Entitled d r seen s) (hsub : seen ⊆ seen') : Entitled d r seen' s := by
  cases h with
  | admin hroute hcaller hadmin hs => exact .admin hroute (hcaller.mono hsub) hadmin hs
  | ownSession hroute hadmin hcaller => exact .ownSession hroute hadmin (hcaller.mono hsub)
  | credentials hroute hbody hm huser hpassword hm' hdrawn =>
    exact .credentials hroute hbody (hsub hm) huser hpassword (hsub hm') hdrawn
  | firstAdmin hroute hm hopen hbody => exact .firstAdmin hroute (hsub hm) hopen hbody
  | closing hroute hm hopen hs => exact .closing hroute (hsub hm) hopen hs

/-- A call that reads, or that the request is entitled to. -/
def Permitted (d : ApiDeps) (r : HttpRequest) (seen : Set DbMoment) : DbCall → Prop :=
  DbCall.Only fun s => s.Reads = true ∨ Entitled d r seen s

theorem DbCall.Only.mono {p q : Stmt → Prop} (hpq : ∀ s, p s → q s) {op : DbCall} (h : op.Only p) :
    op.Only q := by
  cases op with
  | sql s => exact hpq s h
  | rowsAffected n => trivial
  | now => trivial
  | randRead n => trivial

/-- What reads only is permitted. -/
theorem grounded_reads {α : Type} {p : Db α} (hp : p.AllCalls (DbCall.Only fun s => s.Reads = true)) :
    p.Grounded serve (Permitted d r) (fun _ seen' => seen ⊆ seen') seen :=
  (hp.mono fun _ hop _ _ => hop.mono fun _ => .inl).grounded subset_rfl

/-- What needs evidence that is there is permitted. -/
theorem grounded_entitled {α : Type} {p : Db α} {q : Stmt → Prop} (hp : p.AllCalls (DbCall.Only q))
    (hq : ∀ s, q s → s.Reads = true ∨ Entitled d r seen s) :
    p.Grounded serve (Permitted d r) (fun _ seen' => seen ⊆ seen') seen :=
  (hp.mono fun _ hop _ hsub => hop.mono fun s hs => (hq s hs).imp_right (·.mono hsub)).grounded
    subset_rfl

/-- What a statement answers without a fault is so in the database at that moment. -/
theorem grounded_exec {pre : String} {st : Stmt} {Q : Except GoError st.Val → Set DbMoment → Prop}
    (hst : st.Reads = true) (herror : ∀ err seen', seen ⊆ seen' → Q (.error err) seen')
    (hok : ∀ m seen', seen ⊆ seen' → m ∈ seen' →
      Q ((st.exec m.state).1.mapError (GoError.wrap pre)) seen') :
    (Db.exec pre st).Grounded serve (Permitted d r) Q seen := by
  refine grounded_call (.inl hst) fun e x => ?_
  have hsub : seen ⊆ insert (⟨.sql st, e, x⟩ : DbMoment) seen := Set.subset_insert _ _
  rcases hfault : e.faults.head with _ | err
  · have hans : (serve (.sql st) (e, x)).1 = (st.exec x).1 := by simp only [serve, hfault]
    rw [hans]
    exact hok ⟨.sql st, e, x⟩ _ hsub (Set.mem_insert _ _)
  · have hans : (serve (.sql st) (e, x)).1 = .error err := by simp only [serve, hfault]
    rw [hans]
    exact herror _ _ hsub

/-! ### The middleware -/

/-- The session is found, and its user. -/
theorem grounded_validateSession (htoken : token ≠ "") :
    (Service.validateSession token).Grounded serve (Permitted d r)
      (fun res seen' => seen ⊆ seen' ∧ ∀ user, res = .ok (some user) → Vouched seen' token user) seen := by
  refine Grounded.bind (grounded_call trivial fun e x => ?_)
  have hsub : seen ⊆ insert (⟨.now, e, x⟩ : DbMoment) seen := Set.subset_insert _ _
  refine grounded_exec rfl (fun err seen' hseen => ⟨hsub.trans hseen, by rintro _ ⟨⟩⟩) ?_
  intro m₁ seen₁ hseen₁ hm₁
  have hm₀ : (⟨.now, e, x⟩ : DbMoment) ∈ seen₁ := hseen₁ (Set.mem_insert _ _)
  simp only [Stmt.exec, Except.mapError]
  rcases hsess : (m₁.state.sessions.lookup token).filter
    (fun sess => sess.expiresAt > (serve DbCall.now (e, x)).1) with _ | sess
  · simp only [hsess]
    exact ⟨hsub.trans hseen₁, by rintro _ ⟨⟩⟩
  obtain ⟨hlookup, hunexpired⟩ := Option.filter_eq_some_iff.mp hsess
  have hnow : e.clock.head < sess.expiresAt := of_decide_eq_true hunexpired
  simp only [hsess]
  refine Grounded.bind (grounded_exec rfl ?_ ?_)
  · intro err seen' hseen
    exact ⟨(hsub.trans hseen₁).trans hseen, by rintro _ ⟨⟩⟩
  · intro m₂ seen₂ hseen₂ hm₂
    refine ⟨(hsub.trans hseen₁).trans hseen₂, fun user huser => ?_⟩
    simp only [Stmt.exec, Except.mapError, Except.ok.injEq] at huser
    exact ⟨htoken, _, hseen₂ hm₀, m₁, hseen₂ hm₁, m₂, hm₂, sess, rfl, hlookup, hnow, huser⟩

/-- What the middleware lets through is vouched for. -/
theorem grounded_requireAuth (headers : AuthHeaders) :
    (requireAuth headers).Grounded serve (Permitted d r)
      (fun res seen' => seen ⊆ seen' ∧ (res = .error (jsonError "unauthorized" 401) ∨
        ∃ user, res = .ok user ∧ Vouched seen' (extractToken headers) user)) seen := by
  rw [requireAuth]
  split_ifs with htoken
  · exact ⟨subset_rfl, .inl rfl⟩
  refine ((grounded_validateSession htoken).mono ?_).bind
  rintro (err | (_ | user)) seen' ⟨hsub, huser⟩
  · exact ⟨hsub, .inl rfl⟩
  · exact ⟨hsub, .inl rfl⟩
  · exact ⟨hsub, .inr ⟨user, rfl, huser user rfl⟩⟩

theorem grounded_authed {headers : AuthHeaders} {next : User → Db ApiReply}
    {Q : ApiReply → Set DbMoment → Prop}
    (hdenied : ∀ seen', seen ⊆ seen' → Q (jsonError "unauthorized" 401) seen')
    (hnext : ∀ user seen', seen ⊆ seen' → Vouched seen' (extractToken headers) user →
      (next user).Grounded serve (Permitted d r) Q seen') :
    (authed headers next).Grounded serve (Permitted d r) Q seen := by
  refine ((grounded_requireAuth headers).mono ?_).bind
  rintro _ seen' ⟨hsub, rfl | ⟨user, rfl, huser⟩⟩
  · exact hdenied seen' hsub
  · exact hnext user seen' hsub huser

/-! ### The handlers -/

theorem grounded_login (hroute : ¬r.GoesTo d authedMounts) (body : Option LoginRequest)
    (hbody : r.body.login = body) : (AuthHandler.login d.bc body).Grounded serve (Permitted d r)
      (fun _ _ => True) seen := by
  rcases body with _ | req
  · trivial
  simp only [AuthHandler.login]
  split_ifs
  · trivial
  refine Grounded.bind (Grounded.mono (Q := fun _ _ => True) ?_ ?_)
  · refine Grounded.bind (grounded_exec rfl (fun _ _ _ => trivial) ?_)
    intro m seen₁ hsub hm
    simp only [Stmt.exec, Except.mapError]
    rcases huser : m.state.users.byUsername req.username with _ | user
    · trivial
    dsimp only
    split_ifs with hpassword
    · trivial
    refine grounded_call trivial fun e x => ?_
    have hsub₂ : seen₁ ⊆ insert (⟨.randRead 32, e, x⟩ : DbMoment) seen₁ := Set.subset_insert _ _
    rcases hdrawn : e.random.head with err | bytes
    · have hans : (serve (.randRead 32) (e, x)).1 = .error err := by simp [serve, hdrawn, Except.map]
      rw [hans]
      trivial
    · have hans : (serve (.randRead 32) (e, x)).1 = .ok (takeBytes 32 bytes) := by
        simp [serve, hdrawn, Except.map]
      rw [hans]
      refine Grounded.mono (grounded_entitled (q := fun s => ∃ expiresAt t,
        s = .insertSession user.id (hexString (takeBytes 32 bytes)) expiresAt t) ?_ ?_)
        fun _ _ _ => trivial
      · refine AllCalls.bind (p := Db.now) (allCalls_now trivial) fun t => ?_
        refine (allCalls_createSession fun t => ⟨_, _, rfl⟩).bind ?_
        rintro (err | ⟨⟩) <;> trivial
      · rintro _ ⟨expiresAt, t, rfl⟩
        exact .inr (.credentials hroute hbody (hsub₂ hm) huser (by simpa using hpassword)
          (Set.mem_insert _ _) hdrawn)
  · rintro (err | token) seen' -
    · dsimp only
      split_ifs <;> trivial
    · trivial

/-- What the first setup may do, once the store was seen not to be set up. -/
def Stmt.FirstSetup (body : Option SetupRequest) (s : Stmt) : Prop :=
  s.Reads = true ∨
    (∃ username hash t, AcceptableSetup body username ∧ s = .insertUser username hash roleAdmin t) ∨
    (∃ t, s = .updateSetting "setup_complete" "true" t) ∨
    ∃ t, s = .insertSetting "setup_complete" "true" t

theorem calls_createAdmin (body : Option SetupRequest) :
    (SetupHandler.createAdmin bc body).AllCalls (DbCall.Only (Stmt.FirstSetup body)) :=
  allCalls_createAdmin bc body (fun _ => .inl rfl)
    (fun username hacc hash t => .inr (.inl ⟨username, hash, t, hacc, rfl⟩))
    (fun t => .inr (.inr (.inl ⟨t, rfl⟩))) fun t => .inr (.inr (.inr ⟨t, rfl⟩))

theorem grounded_completeSetup (hroute : ¬r.GoesTo d authedMounts) :
    (SetupHandler.completeSetup d.bc r.body.setup).Grounded serve (Permitted d r) (fun _ _ => True)
      seen := by
  refine Grounded.bind (Grounded.bind (grounded_exec rfl (fun _ _ _ => trivial) ?_))
  intro m seen' hsub hm
  simp only [Stmt.exec, Except.mapError]
  rcases hopen : m.state.appSettings.lookup "setup_complete" with _ | setting
  · refine (grounded_entitled (calls_createAdmin r.body.setup) ?_).mono fun _ _ _ => trivial
    rintro s (hreads | ⟨username, hash, t, hacc, rfl⟩ | hclose)
    · exact .inl hreads
    · exact .inr (.firstAdmin hroute hm hopen hacc)
    · exact .inr (.closing hroute hm hopen hclose)
  · trivial

/-! ### The handlers behind the middleware -/

/-- A call that reads, or that the body asks for. -/
def DbCall.Asked (s : ConfigStore) (body : RequestBody) : DbCall → Prop :=
  DbCall.Only fun st => st.Reads = true ∨ st.AskedBy s body

section Asked

variable (s : ConfigStore) (body : RequestBody)

/-- A config request does what its operation does, after some reading. -/
theorem calls_configRequest (req : ConfigRequest)
    (hreq : ∀ q, req.operation s = some q → q.AllCalls (DbCall.Asked s body)) :
    (req.program s).AllCalls (DbCall.Asked s body) := by
  rcases program_handles s req with ⟨message, code, -, hp⟩ | ⟨q, hq, hp⟩
  · rw [hp]
    trivial
  · exact hp.allCalls (hreq q hq) fun op hop => hop.mono fun _ h => .inl h.1

theorem calls_saveVault_asked (id : String) {v : VaultConfig} (hv : body.vault = some v) :
    (s.saveVault { v with id := id }).AllCalls (DbCall.Asked s body) :=
  ConfigStore.allCalls_saveVault_stores (fun _ _ h => .inr ⟨v, hv, h⟩) fun _ _ h => .inr ⟨v, hv, h⟩

theorem calls_saveSync_asked (id : String) {sc : SyncConfig} (hsync : body.sync = some sc) :
    (ConfigStore.saveSync { sc with id := id }).AllCalls (DbCall.Asked s body) :=
  allCalls_upsertConfigRow (fun _ => .inr ⟨sc, hsync, rfl⟩) fun _ => .inr ⟨sc, hsync, rfl⟩

theorem calls_createVault : (ConfigHandler.createVault s body.vault).AllCalls (DbCall.Asked s body) :=
  calls_configRequest s body (.createVault body.vault) fun q hq => by
    obtain ⟨v, hv, rfl⟩ := Option.map_eq_some_iff.mp hq
    exact calls_saveVault_asked s body v.id hv

theorem calls_updateVault (id : String) :
    (ConfigHandler.updateVault s id body.vault).AllCalls (DbCall.Asked s body) :=
  calls_configRequest s body (.updateVault id body.vault) fun q hq => by
    obtain ⟨v, hv, rfl⟩ := Option.map_eq_some_iff.mp hq
    exact calls_saveVault_asked s body id hv

theorem calls_createSync : (ConfigHandler.createSync s body.sync).AllCalls (DbCall.Asked s body) :=
  calls_configRequest s body (.createSync body.sync) fun q hq => by
    obtain ⟨sc, hsync, rfl⟩ := Option.map_eq_some_iff.mp hq
    exact calls_saveSync_asked s body sc.id hsync

theorem calls_updateSync (id : String) :
    (ConfigHandler.updateSync s id body.sync).AllCalls (DbCall.Asked s body) :=
  calls_configRequest s body (.updateSync id body.sync) fun q hq => by
    obtain ⟨sc, hsync, rfl⟩ := Option.map_eq_some_iff.mp hq
    exact calls_saveSync_asked s body id hsync

end Asked

variable (d) in
/-- What the admin mux serves reads, or does what the body asks for. -/
theorem calls_adminRoutes : ∀ rt ∈ adminRoutes d, ∀ r,
    (rt.2 r).AllCalls (DbCall.Asked d.store r.body) := by
  intro rt hrt r
  simp only [adminRoutes, List.mem_cons, List.not_mem_nil, or_false] at hrt
  rcases hrt with rfl | rfl | rfl | rfl | rfl | rfl | rfl | rfl | rfl | rfl | rfl | rfl | rfl | rfl | rfl
  · exact allCalls_listVaultsConfig _ (.inl rfl)
  · exact allCalls_testVaultConnection _ _
  · exact calls_createVault _ _
  · exact allCalls_getVaultConfig _ _ (.inl rfl)
  · exact calls_updateVault _ _ _
  · exact allCalls_deleteVaultConfig _ (.inr trivial)
  · exact allCalls_listSyncsConfig _ (.inl rfl)
  · exact calls_createSync _ _
  · exact allCalls_getSyncConfig _ _ (.inl rfl)
  · exact calls_updateSync _ _ _
  · exact allCalls_deleteSyncConfig _ (.inr trivial)
  · exact allCalls_listUsers (.inl rfl)
  · exact allCalls_createUserHandler _ _ (fun _ => .inl rfl) fun req h _ _ => .inr ⟨req, h, rfl, rfl⟩
  · exact allCalls_updateUserHandler _ _ _ (fun req h hne _ _ _ => .inr ⟨req, h, hne⟩)
      fun req h _ _ => .inr ⟨req, h, rfl⟩
  · exact allCalls_deleteUserAccount _ _ (fun _ => .inl rfl) (.inl rfl) (fun _ => .inr trivial)
      fun _ => .inr trivial

variable (d) in
/-- What the mux for any user serves makes no statement, but for the end of the session. -/
theorem calls_authedRoutes : ∀ rt ∈ authedRoutes d, ∀ r,
    (rt.2 r).AllCalls (DbCall.Only fun s => s = .deleteSession (extractToken r.headers)) := by
  intro rt hrt r
  simp only [authedRoutes, List.mem_cons, List.not_mem_nil, or_false] at hrt
  rcases hrt with rfl | rfl | rfl | rfl | rfl | rfl | rfl | rfl | rfl
  · exact allCalls_logoutHandler rfl
  · simp only [route, AuthHandler.me]
    rcases r.user with _ | user <;> trivial
  · trivial
  · trivial
  · trivial
  · simp only [route, ApiHandler.getSyncStatus]
    split_ifs
    · trivial
    · rcases d.getSyncStatus (r.pathValue "sync_id") with err | status <;> trivial
  · simp only [route, ApiHandler.getSyncRuns]
    split_ifs
    · trivial
    · generalize d.getSyncRuns (r.pathValue "sync_id") _ = runs
      rcases runs with err | runs <;> trivial
  · simp only [route, ApiHandler.executeSync]
    split_ifs <;> trivial
  · trivial

/-! ### The server -/

/-- What all handlers of a mux keep, the mux keeps. -/
theorem grounded_serveMux {code : ℕ} {routes : List (Pattern × HttpHandler)} {r' : HttpRequest}
    {Q : ApiReply → Set DbMoment → Prop}
    (hroutes : ∀ f, findHandler routes r'.method r'.path = .handler f → (f.pattern, f.handler) ∈ routes →
      (f.handler { r' with pathValue := f.pathValue }).Grounded serve (Permitted d r) Q seen)
    (hnone : (∀ f, findHandler routes r'.method r'.path ≠ .handler f) → ∀ reply, Q reply seen) :
    (serveMux code routes r').Grounded serve (Permitted d r) Q seen := by
  rw [serveMux]
  rcases hfind : findHandler routes r'.method r'.path with f | _ | _ | _
  · exact hroutes f hfind (mem_of_findHandler hfind)
  all_goals exact hnone (by simp [hfind]) _

/-- How a request ends: refused, or with a caller vouched for, who is an admin if it takes one. -/
def Answered (d : ApiDeps) (r : HttpRequest) (reply : ApiReply) (seen : Set DbMoment) : Prop :=
  r.GoesTo d authedMounts → reply = jsonError "unauthorized" 401 ∨
    ∃ user, Vouched seen (extractToken r.headers) user ∧
      (r.GoesTo d adminMounts → reply = jsonError "forbidden" 403 ∨ user.role = roleAdmin)

theorem not_goesTo {f : Found HttpHandler} (hfind : findHandler (mainRoutes d) r.method r.path = .handler f)
    {mounts : List Pattern} (h : f.pattern ∉ mounts) : ¬r.GoesTo d mounts := by
  rintro ⟨f', hfind', hmem⟩
  rw [hfind] at hfind'
  cases hfind'
  exact h hmem

theorem grounded_adminMux {f : Found HttpHandler} (hroute : r.GoesTo d adminMounts) :
    (requireAdminHandler (serveMux d.redirectCode (adminRoutes d))
      { r with pathValue := f.pathValue }).Grounded serve (Permitted d r) (Answered d r) seen := by
  refine grounded_authed (fun _ _ _ => .inl rfl) fun user seen' hsub huser => ?_
  simp only [requireAdmin]
  split_ifs with hrole
  · exact fun _ => .inr ⟨user, huser, fun _ => .inl rfl⟩
  have hadmin : user.role = roleAdmin := not_not.mp hrole
  have hanswered : ∀ reply seen'', seen' ⊆ seen'' → Answered d r reply seen'' :=
    fun reply seen'' hsub' _ => .inr ⟨user, huser.mono hsub', fun _ => .inr hadmin⟩
  refine grounded_serveMux (fun g hg hmem => ?_) fun _ reply => hanswered reply seen' subset_rfl
  refine (grounded_entitled (calls_adminRoutes d _ hmem _) fun st hst => ?_).mono hanswered
  exact hst.imp_right (.admin hroute huser hadmin)

theorem grounded_authedMux {f : Found HttpHandler} (hroute : r.GoesTo d authedMounts)
    (hadmin : ¬r.GoesTo d adminMounts) :
    (requireAuthHandler (serveMux d.redirectCode (authedRoutes d))
      { r with pathValue := f.pathValue }).Grounded serve (Permitted d r) (Answered d r) seen := by
  refine grounded_authed (fun _ _ _ => .inl rfl) fun user seen' hsub huser => ?_
  have hanswered : ∀ reply seen'', seen' ⊆ seen'' → Answered d r reply seen'' :=
    fun reply seen'' hsub' _ => .inr ⟨user, huser.mono hsub', fun h => absurd h hadmin⟩
  refine grounded_serveMux (fun g hg hmem => ?_) fun _ reply => hanswered reply seen' subset_rfl
  refine (grounded_entitled (calls_authedRoutes d _ hmem _) fun st hst => ?_).mono hanswered
  rw [hst]
  exact .inr (.ownSession hroute hadmin huser)

/-- Every call of a request is permitted by what it has seen. -/
theorem grounded_serveHTTP (d : ApiDeps) (r : HttpRequest) :
    (serveHTTP d r).Grounded serve (Permitted d r) (Answered d r) seen := by
  refine grounded_serveMux (fun f hfind hmem => ?_) fun hnone _ h => ?_
  · have hpublic : f.pattern ∉ authedMounts → ∀ reply seen', Answered d r reply seen' :=
      fun hno _ _ h => absurd h (not_goesTo hfind hno)
    simp only [mainRoutes, List.mem_cons, List.not_mem_nil, or_false, route, mount, Prod.mk.injEq] at hmem
    rcases hmem with ⟨hp, hh⟩ | ⟨hp, hh⟩ | ⟨hp, hh⟩ | ⟨hp, hh⟩ | ⟨hp, hh⟩ | ⟨hp, hh⟩ | ⟨hp, hh⟩ | ⟨hp, hh⟩
    · rw [hh]
      exact (grounded_reads (allCalls_getSetupStatus rfl)).mono fun _ _ _ => hpublic (by rw [hp]; decide) _ _
    · rw [hh]
      have hroute : f.pattern ∉ authedMounts := by rw [hp]; decide
      exact (grounded_completeSetup (not_goesTo hfind hroute)).mono fun _ _ _ => hpublic hroute _ _
    · rw [hh]
      have hroute : f.pattern ∉ authedMounts := by rw [hp]; decide
      exact (grounded_login (not_goesTo hfind hroute) _ rfl).mono fun _ _ _ => hpublic hroute _ _
    · rw [hh]
      exact grounded_adminMux ⟨f, hfind, by rw [hp]; decide⟩
    · rw [hh]
      exact grounded_adminMux ⟨f, hfind, by rw [hp]; decide⟩
    · rw [hh]
      exact grounded_adminMux ⟨f, hfind, by rw [hp]; decide⟩
    · rw [hh]
      exact grounded_authedMux ⟨f, hfind, by rw [hp]; decide⟩ (not_goesTo hfind (by rw [hp]; decide))
    · rw [hh]
      exact hpublic (by rw [hp]; decide) _ _
  · obtain ⟨f, hfind, -⟩ := h
    exact absurd hfind (hnone f)

section Run

variable {ι : Type} [DecidableEq ι] {i : ι}
  {s₀ s : Threads.State DbCall DbCall.Ans Surroundings Database ApiReply ι}

/-- What a request has seen so far, its next call and its reply answer to. -/
theorem exists_seen {d : ApiDeps} {r : HttpRequest} (hstart : s₀.prog i = serveHTTP d r)
    (hs : Threads.Reaches serve s₀ s) : ∃ seen, (∀ m ∈ seen, Threads.Between serve s₀ s i m) ∧
      (s.prog i).Grounded serve (Permitted d r) (Answered d r) seen :=
  hs.grounded (by rw [hstart]; exact grounded_serveHTTP d r)

/-- However requests interleave, and whatever else is done to the database: what a request is about to
    write, it is entitled to by what was so at earlier moments of its own. -/
theorem writes_entitled (d : ApiDeps) (r : HttpRequest) (hstart : s₀.prog i = serveHTTP d r)
    (hs : Threads.Reaches serve s₀ s) {st : Stmt} {k : Except GoError st.Val → Db ApiReply}
    (hnext : s.prog i = .call (.sql st) k) (hwrites : st.Reads = false) :
    Entitled d r { m | Threads.Between serve s₀ s i m } st := by
  obtain ⟨seen, hseen, hgrounded⟩ := exists_seen hstart hs
  rw [hnext] at hgrounded
  rcases hgrounded.1 with hreads | hentitled
  · rw [hreads] at hwrites
    cases hwrites
  · exact hentitled.mono hseen

end Run

/-- The request that sets the store up. -/
def setupRequest : HttpRequest where
  method := "POST"
  path := "/api/setup"
  body := { setup := some { adminUsername := "a", adminPassword := "password" } }

theorem serveHTTP_setupRequest (d : ApiDeps) :
    serveHTTP d setupRequest = SetupHandler.completeSetup d.bc setupRequest.body.setup := by
  have hpath : setupRequest.path = slashed ["api".toList, "setup".toList] := by
    simp [setupRequest, slashed]
  have hplain : ∀ p ∈ ["api".toList, "setup".toList], Proper p := by simp [Proper]
  have hsegments : pathSegments setupRequest.path = ["api", "setup"] := by
    rw [hpath, pathSegments_slashed fun p hp => (hplain p hp).1]
    simp [segmentsOf, unescapeSegment_of_plain]
  let post := route "POST" [.lit "api", .lit "setup"] fun r => SetupHandler.completeSetup d.bc r.body.setup
  refine serveMux_of_found (f := ⟨post.1, post.2, [], true⟩) ?_ ?_ ?_
  · rw [hpath, cleanPath_slashed hplain (by simp)]
  · rw [hsegments]
    rfl
  · rw [hsegments]
    rfl

/-- Is the next call a statement that writes? -/
def nextWrites : Db ApiReply → Bool
  | .call (.sql st) _ => !st.Reads
  | _ => false

/-- The first setup comes to the statement that makes the admin. -/
theorem writes_entitled_setup :
    ∃ s₀ s : Threads.State DbCall DbCall.Ans Surroundings Database ApiReply Unit,
    s₀.prog () = serveHTTP {} setupRequest ∧ Threads.Reaches serve s₀ s ∧
      ∃ st k, s.prog () = .call (.sql st) k ∧ st.Reads = false ∧
        Entitled {} setupRequest { m | Threads.Between serve s₀ s () m } st := by
  let s₀ : Threads.State DbCall DbCall.Ans Surroundings Database ApiReply Unit :=
    ⟨fun _ => SetupHandler.completeSetup plainBcrypt setupRequest.body.setup, fun _ => {}, .empty⟩
  have hstart : s₀.prog () = serveHTTP {} setupRequest := (serveHTTP_setupRequest {}).symm
  obtain ⟨s, hs, hwrites⟩ := Threads.exists_of_follow (h := serve) (List.replicate 4 ())
    (fun s => nextWrites (s.prog ())) (show (Threads.follow serve s₀ _).map _ = some true from rfl)
  rcases hp : s.prog () with reply | ⟨op, k⟩
  · simp [hp, nextWrites] at hwrites
  rcases op with st | n | _ | n
  · have hreads : st.Reads = false := by simpa [hp, nextWrites] using hwrites
    exact ⟨s₀, s, hstart, hs, st, k, hp, hreads, writes_entitled {} setupRequest hstart hs hp hreads⟩
  all_goals simp [hp, nextWrites] at hwrites

/-! ### An admin at work -/

/-- One user with this role, and a session of theirs. -/
def oneSession (role : String) (expiresAt : ℤ) : Database :=
  (Database.empty.insertUser "u" "" role 0 rfl).insertSession 1 "t" expiresAt 0 rfl
    (Option.some_ne_none _)

/-- Requests of that user. -/
def createVaultRequest (v : VaultConfig) : HttpRequest where
  method := "POST"
  path := "/api/config/vaults"
  headers := { sessionCookie := some "t" }
  body := { vault := some v }

def createSyncRequest (sc : SyncConfig) : HttpRequest where
  method := "POST"
  path := "/api/config/syncs"
  headers := { sessionCookie := some "t" }
  body := { sync := some sc }

/-- A vault with a token in a header, and a sync from it. -/
def tokenHeaderVault : VaultConfig :=
  { id := "v", auth := some { method := "custom", headers := [("X-Token", "s")] } }

def tokenHeaderSync : SyncConfig := { id := "s", source := "v", targets := ["w"] }

/-- The request that makes the vault, and the one that makes the sync. -/
def creation (sync : Bool) : HttpRequest :=
  if sync then createSyncRequest tokenHeaderSync else createVaultRequest tokenHeaderVault

/-- An admin makes both at once. -/
def creating (d : ApiDeps) : Threads.State DbCall DbCall.Ans Surroundings Database ApiReply Bool :=
  ⟨fun sync => serveHTTP d (creation sync), fun _ => {}, oneSession roleAdmin 10⟩

theorem text_creating (d : ApiDeps) (t : ConfigTable) (k : String) : (creating d).shared.text t k = none := by
  cases t with
  | vaults => rfl
  | syncs => rfl

/-- Call by call, by turns. -/
def byTurns (n : ℕ) : List Bool := (List.replicate n [false, true]).flatten

/-- The status of a reply. -/
def replied : Db ApiReply → Option ℕ
  | .ret reply => some reply.status
  | _ => none

end VaultsSyncer
