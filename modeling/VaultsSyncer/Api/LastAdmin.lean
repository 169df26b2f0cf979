import VaultsSyncer.Api.Setup
import VaultsSyncer.Auth.Callers
import VaultsSyncer.Auth.Removal
import VaultsSyncer.Schemes.Runs

/-! Is there always an admin? `DeleteUser` refuses to remove the last one (`ErrLastAdmin`), which two
    things get round. `UpdateUser` may turn the last admin into a user, and nothing else a request can
    do on its own takes the last admin away (`admin_remains`). And where requests overlap, what
    `DeleteUser` has counted may be gone by the time it deletes, so all admins that are being
    deleted can go (`admin_left_iff`). -/

namespace VaultsSyncer

open GoStd Schemes Schemes.Prog

/-! ### One request after another -/

/-- The database after a request. -/
def served (bc : Bcrypt) (db : Database) (x : AccountRequest × Surroundings) : Database :=
  ((x.1.program bc).run serve (x.2, db)).2.2

/-- The password part of an update goes through. -/
def PasswordAccepted (password : String) (env : Surroundings) : Prop :=
  password = "" ∨ 8 ≤ byteLength password ∧ byteLength password ≤ 72 ∧ ∃ salt, env.random.head = .ok salt

/-- An `UpdateUser` of an admin that gives the only admin the role of a user. -/
def DemotesLastAdmin (db : Database) : AccountRequest × Surroundings → Prop
  | (.updateUser r userID (some body), env) =>
    (∃ caller, db.AdminCaller (extractToken r) env.clock.head caller) ∧
      (∃ id, parseInt64 userID = some id ∧ ∀ u ∈ db.users.rows, u.role = roleAdmin → u.id = id) ∧
      PasswordAccepted body.password env ∧ body.role = roleUser
  | _ => False

/-- A statement that takes no admin away. -/
def Stmt.KeepsAdmins (s : Stmt) : Prop :=
  s.KeepsUsers = true ∨ ∃ username hash role t, s = .insertUser username hash role t

theorem Stmt.KeepsAdmins.exec {s : Stmt} (hs : s.KeepsAdmins) {db : Database}
    (h : db.users.HasAdmin) : (s.exec db).2.users.HasAdmin := by
  rcases hs with hkeeps | ⟨username, hash, role, t, rfl⟩
  · rwa [Stmt.exec_keepsUsers hkeeps]
  · simp only [Stmt.exec]
    split_ifs with hfree
    · obtain ⟨u, hu, hrole⟩ := h
      exact ⟨u, List.mem_append_left _ hu, hrole⟩
    · exact h

theorem hasAdmin_run {α : Type} {p : Db α} (hp : p.AllCalls (DbCall.Only Stmt.KeepsAdmins))
    (env : Surroundings) {db : Database} (h : db.users.HasAdmin) :
    (p.run serve (env, db)).2.2.users.HasAdmin := by
  refine hp.run_preserves serve (I := fun x => x.2.users.HasAdmin) ?_ h
  rintro op ⟨env, d⟩ hop hd
  exact serve_preserves (I := fun d => d.users.HasAdmin) hop (fun _ _ hs => hs.exec) env hd

section Requests

variable (bc : Bcrypt)

theorem calls_login (body : Option LoginRequest) :
    (AuthHandler.login bc body).AllCalls (DbCall.Only Stmt.KeepsAdmins) := by
  rcases body with _ | req
  · trivial
  · simp only [AuthHandler.login]
    split_ifs
    · trivial
    · refine (allCalls_login bc (.inl rfl) fun _ _ _ _ => .inl rfl).bind ?_
      rintro (err | token)
      · dsimp only
        split_ifs <;> trivial
      · trivial

theorem calls_logout (r : AuthHeaders) :
    (authed r fun _ => AuthHandler.logout r).AllCalls (DbCall.Only Stmt.KeepsAdmins) := by
  refine (allCalls_requireAuth (fun _ => .inl rfl) fun _ => .inl rfl).bind ?_
  rintro (reply | user)
  · trivial
  · simp only [AuthHandler.logout]
    split_ifs
    · exact (allCalls_logout (.inl rfl)).bind fun _ => trivial
    · trivial

theorem calls_createUser (body : Option CreateUserRequest) :
    (UsersHandler.createUser bc body).AllCalls (DbCall.Only Stmt.KeepsAdmins) := by
  rcases body with _ | req
  · trivial
  · simp only [UsersHandler.createUser]
    generalize (if req.role = "" then roleUser else req.role) = role
    split_ifs
    · trivial
    · trivial
    · trivial
    · refine (allCalls_serviceCreateUser bc (.inl rfl) fun hash t => .inr ⟨_, _, _, _, rfl⟩).bind ?_
      rintro (err | user)
      · dsimp only
        split_ifs <;> trivial
      · trivial

end Requests

/-! ### Updates -/

/-- A statement that changes nobody's role. -/
def Stmt.KeepsRoles (s : Stmt) : Prop :=
  s.KeepsUsers = true ∨ ∃ id hash t, s = .updateUserPassword id hash t

/-- Who is an admin after an update. -/
theorem UserTable.mem_adminIDs_set {t : UserTable} {id : ℤ} {f : User → User}
    (hid : ∀ u, (f u).id = u.id) (hname : ∀ u, (f u).username = u.username) {i : ℤ} :
    i ∈ (t.set id f hid hname).adminIDs ↔
      ∃ u ∈ t.rows, (if u.id = id then f u else u).role = roleAdmin ∧ u.id = i := by
  have hkeep (u : User) : (if u.id = id then f u else u).id = u.id := by
    split_ifs
    · exact hid u
    · rfl
  constructor
  · rintro ⟨_, hv, hadmin, rfl⟩
    obtain ⟨u, hu, rfl⟩ := List.mem_map.mp hv
    exact ⟨u, hu, hadmin, (hkeep u).symm⟩
  · rintro ⟨u, hu, hadmin, rfl⟩
    exact ⟨_, List.mem_map_of_mem hu, hadmin, hkeep u⟩

theorem Stmt.KeepsRoles.exec {s : Stmt} (hs : s.KeepsRoles) (db : Database) :
    (s.exec db).2.users.adminIDs = db.users.adminIDs := by
  rcases hs with hkeeps | ⟨id, hash, t, rfl⟩
  · rw [Stmt.exec_keepsUsers hkeeps]
  · ext i
    simp only [Stmt.exec, Database.setUser]
    refine (UserTable.mem_adminIDs_set _ _).trans ?_
    simp [UserTable.adminIDs, apply_ite User.role]

/-- A role update of another user, or to the role of an admin, leaves an admin. -/
theorem hasAdmin_updateUserRole {db : Database} (h : db.users.HasAdmin) {id : ℤ} {role : String} {t : ℤ}
    (hsafe : role = roleAdmin ∨ ∃ i ∈ db.users.adminIDs, i ≠ id) :
    ((Stmt.updateUserRole id role t).exec db).2.users.HasAdmin := by
  rw [UserTable.hasAdmin_iff_ids] at h ⊢
  simp only [Stmt.exec, Database.setUser]
  rcases hsafe with rfl | ⟨i, ⟨u, hu, hadmin, rfl⟩, hne⟩
  · obtain ⟨i, u, hu, hadmin, rfl⟩ := h
    refine ⟨u.id, (UserTable.mem_adminIDs_set _ _).mpr ⟨u, hu, ?_, rfl⟩⟩
    split_ifs
    · rfl
    · exact hadmin
  · exact ⟨u.id, (UserTable.mem_adminIDs_set _ _).mpr ⟨u, hu, by rwa [if_neg hne], rfl⟩⟩

/-- The last admin that is made a user leaves none. -/
theorem no_admin_updateUserRole {db : Database} {id : ℤ} {t : ℤ}
    (hlast : ∀ i ∈ db.users.adminIDs, i = id) :
    ¬((Stmt.updateUserRole id roleUser t).exec db).2.users.HasAdmin := by
  rw [UserTable.hasAdmin_iff_ids]
  rintro ⟨i, hi⟩
  simp only [Stmt.exec, Database.setUser] at hi
  obtain ⟨u, hu, hadmin, rfl⟩ := (UserTable.mem_adminIDs_set _ _).mp hi
  split_ifs at hadmin with hid
  · exact absurd hadmin (by simp [roleUser, roleAdmin])
  · exact hid (hlast u.id ⟨u, hu, hadmin, rfl⟩)

section Updates

variable (bc : Bcrypt)

/-- The password is one that `ChangePassword` makes a hash of. -/
structure PasswordHashed (password : String) (env : Surroundings) (hash : String) : Prop where
  long : 8 ≤ byteLength password
  short : byteLength password ≤ 72
  salted : ∃ salt, env.random.head = .ok salt ∧ hash = bc.hash (takeBytes 16 salt) password

variable {bc} in
theorem PasswordHashed.unique {password hash hash' : String} {env : Surroundings}
    (h : PasswordHashed bc password env hash) (h' : PasswordHashed bc password env hash') :
    hash = hash' := by
  obtain ⟨salt, hsalt, rfl⟩ := h.salted
  obtain ⟨salt', hsalt', rfl⟩ := h'.salted
  rw [hsalt, Except.ok.injEq] at hsalt'
  rw [hsalt']

/-- How the password part of an update ends. -/
inductive PasswordHalf (userID : ℤ) (password : String) (env : Surroundings) (db : Database) :
    Option ApiReply × Surroundings × Database → Prop
  | skipped (h : password = "") : PasswordHalf userID password env db (none, env, db)
  | refused {reply : ApiReply} {env' : Surroundings} (hreply : ¬reply.Success) (hne : password ≠ "")
      (hworks : env.Works → env'.Works)
      (h : ¬((∃ hash, PasswordHashed bc password env hash) ∧ env.faults.head = none)) :
      PasswordHalf userID password env db (some reply, env', db)
  | changed {hash : String} {env' : Surroundings} (h : PasswordHashed bc password env hash)
      (hfault : env.faults.head = none) (henv : env'.faults = env.faults.tail) :
      PasswordHalf userID password env db
        (none, env', ((Stmt.updateUserPassword userID hash env.clock.head).exec db).2)

theorem run_passwordHalf (userID : ℤ) (password : String) (env : Surroundings) (db : Database) :
    PasswordHalf bc userID password env db
      ((UsersHandler.updatePassword bc userID password).run serve (env, db)) := by
  rw [UsersHandler.updatePassword]
  split_ifs with hempty hlong
  · exact .skipped hempty
  · exact .refused (jsonError_not_success _ (by norm_num)) hempty id
      fun h => absurd h.1.choose_spec.long (not_le.mpr hlong)
  · simp only [Service.changePassword, bind_assoc, run_bind]
    by_cases hhash : byteLength password ≤ 72 ∧ ∃ salt, env.random.head = .ok salt
    · obtain ⟨hshort, salt, hrandom⟩ := hhash
      have hhashed : PasswordHashed bc password env (bc.hash (takeBytes 16 salt) password) :=
        ⟨not_lt.mp hlong, hshort, salt, hrandom, rfl⟩
      rw [run_generateFromPassword bc hshort hrandom]
      simp only [UserStore.updateUserPassword, run_bind, run_now]
      rcases hfault : env.faults.head with _ | err
      · rw [run_exec_of_head (show env.drawn.tick.faults.head = none from hfault)]
        exact .changed hhashed hfault rfl
      · rw [run_exec_of_fault (show env.drawn.tick.faults.head = some err from hfault)]
        exact .refused (jsonError_not_success _ (by norm_num)) hempty (fun h => h.drawn.tick.next)
          fun h => by simp [hfault] at h
    · obtain ⟨err, env', hrun, hworks⟩ := run_generateFromPassword_error bc hhash db
      rw [hrun]
      refine .refused (jsonError_not_success _ (by norm_num)) hempty hworks ?_
      rintro ⟨⟨hash, hhashed⟩, -⟩
      obtain ⟨salt, hsalt, -⟩ := hhashed.salted
      exact hhash ⟨hhashed.short, salt, hsalt⟩

/-- The password part changes nobody's role, and ends the request exactly where the password is not
    accepted (or a statement fails). -/
theorem run_updatePassword (userID : ℤ) (password : String) (env : Surroundings) (db : Database) :
    ∃ res env' db', (UsersHandler.updatePassword bc userID password).run serve (env, db) =
        (res, env', db') ∧ db'.users.adminIDs = db.users.adminIDs ∧ (env.Works → env'.Works) ∧
      (res = none → PasswordAccepted password env) ∧
      (env.Works → PasswordAccepted password env → res = none) := by
  have hhalf := run_passwordHalf bc userID password env db
  generalize (UsersHandler.updatePassword bc userID password).run serve (env, db) = x at hhalf ⊢
  cases hhalf with
  | skipped h => exact ⟨none, env, db, rfl, rfl, id, fun _ => .inl h, fun _ _ => rfl⟩
  | @refused reply env' _ hne hworks h =>
    refine ⟨some reply, env', db, rfl, rfl, hworks, by simp, ?_⟩
    rintro henv (hempty | ⟨hlong, hshort, salt, hsalt⟩)
    · exact absurd hempty hne
    · exact absurd ⟨⟨_, hlong, hshort, salt, hsalt, rfl⟩, henv 0⟩ h
  | @changed hash env' h hfault henv =>
    obtain ⟨salt, hsalt, -⟩ := h.salted
    refine ⟨none, env', _, rfl, Stmt.KeepsRoles.exec (.inr ⟨_, _, _, rfl⟩) db, fun hworks n => ?_,
      fun _ => .inr ⟨h.long, h.short, salt, hsalt⟩, fun _ _ => rfl⟩
    rw [henv]
    exact hworks (n + 1)

/-- The role part leaves an admin, unless it makes a user of the only one. -/
theorem hasAdmin_updateRole {userID : ℤ} {role : String} (env : Surroundings) {db : Database}
    (h : db.users.HasAdmin)
    (hsafe : role = roleUser → ∃ i ∈ db.users.adminIDs, i ≠ userID) :
    ((UsersHandler.updateRole userID role).run serve (env, db)).2.2.users.HasAdmin := by
  rw [UsersHandler.updateRole]
  split_ifs with hempty hrole
  · exact h
  · exact h
  · simp only [Service.changeRole, UserStore.updateUserRole, run_bind, run_now]
    rcases run_exec_cases "storage: UpdateUserRole: " (.updateUserRole userID role env.clock.head)
      env.tick db with ⟨-, err, hrun⟩ | hrun
    · rw [hrun]
      exact h
    · rw [hrun]
      refine hasAdmin_updateUserRole h ?_
      by_cases hadmin : role = roleAdmin
      · exact .inl hadmin
      · exact .inr (hsafe (by tauto))

theorem no_admin_updateRole {userID : ℤ} {env : Surroundings} (h : env.Works) {db : Database}
    (hlast : ∀ i ∈ db.users.adminIDs, i = userID) :
    ¬((UsersHandler.updateRole userID roleUser).run serve (env, db)).2.2.users.HasAdmin := by
  have hne : roleUser ≠ "" := by decide
  simp only [UsersHandler.updateRole, hne, ↓reduceIte, not_true_eq_false, and_false,
    Service.changeRole, UserStore.updateUserRole, run_bind, run_now, run_exec h.tick, ne_eq]
  exact no_admin_updateUserRole hlast

/-- An update leaves an admin unless it would demote the only one. -/
theorem hasAdmin_updateUser {userID : String} {body : Option UpdateUserRequest} (env : Surroundings)
    {db : Database} (h : db.users.HasAdmin)
    (hsafe : ∀ id req, parseInt64 userID = some id → body = some req → req.role = roleUser →
      PasswordAccepted req.password env → ∃ i ∈ db.users.adminIDs, i ≠ id) :
    ((UsersHandler.updateUser bc userID body).run serve (env, db)).2.2.users.HasAdmin := by
  rw [UsersHandler.updateUser]
  rcases hid : parseInt64 userID with _ | id
  · exact h
  rcases body with _ | req
  · exact h
  dsimp only
  obtain ⟨res, env', db', hrun, hroles, -, hacc, -⟩ := run_updatePassword bc id req.password env db
  have hadmin' : db'.users.HasAdmin := by
    rw [UserTable.hasAdmin_iff_ids] at h ⊢
    rwa [hroles]
  rw [run_bind, hrun]
  rcases res with _ | reply
  · dsimp only
    rw [run_bind_ret serve (by rintro (_ | reply) <;> exact ⟨_, rfl⟩)]
    refine hasAdmin_updateRole env' hadmin' ?_
    rw [hroles]
    exact fun huser => hsafe id req hid rfl huser (hacc rfl)
  · exact hadmin'

/-- On a working database the only admin is demoted. -/
theorem no_admin_updateUser {userID : String} {id : ℤ} (hid : parseInt64 userID = some id)
    {req : UpdateUserRequest} {env : Surroundings} (h : env.Works) {db : Database}
    (hlast : ∀ i ∈ db.users.adminIDs, i = id) (hrole : req.role = roleUser)
    (hacc : PasswordAccepted req.password env) :
    ¬((UsersHandler.updateUser bc userID (some req)).run serve (env, db)).2.2.users.HasAdmin := by
  rw [UsersHandler.updateUser, hid]
  dsimp only
  obtain ⟨res, env', db', hrun, hroles, hworks, -, hnone⟩ :=
    run_updatePassword bc id req.password env db
  rw [run_bind, hrun, hnone h hacc]
  dsimp only
  rw [run_bind_ret serve (by rintro (_ | reply) <;> exact ⟨_, rfl⟩), hrole]
  exact no_admin_updateRole (hworks h) (hroles ▸ hlast)

end Updates

/-! ### The run -/

section Run

variable (bc : Bcrypt)

/-- A request keeps an admin unless it demotes the last one. -/
theorem hasAdmin_served {db : Database} {x : AccountRequest × Surroundings} (h : db.users.HasAdmin)
    (hsafe : ¬DemotesLastAdmin db x) : (served bc db x).users.HasAdmin := by
  obtain ⟨req, env⟩ := x
  cases req with
  | setup body =>
    refine hasAdmin_run ((calls_completeSetup bc body).mono ?_) env h
    rintro (s | n | _ | n) hop
    · rcases hop with hkeeps | ⟨username, hash, t, -, rfl⟩
      · exact .inl hkeeps
      · exact .inr ⟨_, _, _, _, rfl⟩
    all_goals trivial
  | login body => exact hasAdmin_run (calls_login bc body) env h
  | logout r => exact hasAdmin_run (calls_logout r) env h
  | createUser r body =>
    obtain ⟨env', -, -, ⟨-, reply, hrun⟩ | ⟨caller, -, hrun⟩⟩ :=
      run_adminOnly r (fun _ => UsersHandler.createUser bc body) env db
    · simpa only [served, AccountRequest.program, hrun] using h
    · rw [served, AccountRequest.program, hrun]
      exact hasAdmin_run (calls_createUser bc body) env' h
  | updateUser r userID body =>
    obtain ⟨env', -, hrandom, ⟨-, reply, hrun⟩ | ⟨caller, hcaller, hrun⟩⟩ :=
      run_adminOnly r (fun _ => UsersHandler.updateUser bc userID body) env db
    · simpa only [served, AccountRequest.program, hrun] using h
    · rw [served, AccountRequest.program, hrun]
      refine hasAdmin_updateUser bc env' h ?_
      rintro id req hid rfl hrole hacc
      by_contra hlast
      refine hsafe ⟨⟨caller, hcaller⟩, ⟨id, hid, ?_⟩, ?_, hrole⟩
      · intro u hu hadmin
        by_contra hne
        exact hlast ⟨u.id, ⟨u, hu, hadmin, rfl⟩, hne⟩
      · rwa [PasswordAccepted, hrandom] at hacc
  | deleteUserAccount r userID =>
    obtain ⟨env', -, -, ⟨-, reply, hrun⟩ | ⟨caller, -, hrun⟩⟩ :=
      run_adminOnly r (fun user => UsersHandler.deleteUserAccount (some user) userID) env db
    · simpa only [served, AccountRequest.program, hrun] using h
    · rw [served, AccountRequest.program, hrun, UsersHandler.deleteUserAccount]
      rcases parseInt64 userID with _ | id
      · exact h
      · dsimp only
        split_ifs
        · exact h
        · rw [run_bind_ret serve (by rintro (_ | ⟨⟩) <;> exact ⟨_, rfl⟩)]
          exact hasAdmin_deleteUser id env' h

/-- On a working database a request that demotes the last admin leaves none. -/
theorem no_admin_served {db : Database} {x : AccountRequest × Surroundings} (hworks : x.2.Works)
    (hdemotes : DemotesLastAdmin db x) : ¬(served bc db x).users.HasAdmin := by
  obtain ⟨req, env⟩ := x
  rcases req with _ | _ | _ | _ | ⟨r, userID, _ | req⟩ | _
  case updateUser.some =>
    obtain ⟨⟨caller, hcaller⟩, ⟨id, hid, hlast⟩, hacc, hrole⟩ := hdemotes
    obtain ⟨env', hworks', hrandom, ⟨hnone, -⟩ | ⟨caller', -, hrun⟩⟩ :=
      run_adminOnly r (fun _ => UsersHandler.updateUser bc userID (some req)) env db
    · exact absurd hcaller (hnone hworks caller)
    · rw [served, AccountRequest.program, hrun]
      refine no_admin_updateUser bc hid (hworks' hworks) ?_ hrole ?_
      · rintro _ ⟨u, hu, hadmin, rfl⟩
        exact hlast u hu hadmin
      · rwa [PasswordAccepted, hrandom]
  all_goals exact hdemotes.elim

/-- An admin that `CreateUser` reports is there. -/
theorem hasAdmin_createUser {username hash : String} {env : Surroundings} {db : Database} {u : Option User}
    (h : ((UserStore.createUser username hash roleAdmin).run serve (env, db)).1 = .ok u) :
    ((UserStore.createUser username hash roleAdmin).run serve (env, db)).2.2.users.HasAdmin := by
  rw [UserStore.createUser, run_bind, run_now] at h ⊢
  dsimp only at h ⊢
  rw [run_bind] at h ⊢
  rcases run_exec_cases "storage: CreateUser: " (.insertUser username hash roleAdmin env.clock.head)
    env.tick db with ⟨-, err, hrun⟩ | hrun
  · rw [hrun] at h
    cases h
  · rw [hrun] at h ⊢
    by_cases hfree : db.users.byUsername username = none
    · simp only [Stmt.exec, hfree, ↓reduceDIte, Except.mapError]
      refine hasAdmin_run (allCalls_exec (.inl rfl)) _ ?_
      exact ⟨_, List.mem_append_right _ (List.mem_singleton_self _), rfl⟩
    · simp only [Stmt.exec, hfree, ↓reduceDIte, Except.mapError] at h
      cases h

theorem hasAdmin_setupAdmin {username password : String} {env : Surroundings} {db : Database}
    (h : ((Service.setupAdmin bc username password).run serve (env, db)).1 = .ok ()) :
    ((Service.setupAdmin bc username password).run serve (env, db)).2.2.users.HasAdmin := by
  rw [Service.setupAdmin, run_bind] at h ⊢
  generalize (UserStore.getUserByUsername username).run serve (env, db) = x at h ⊢
  obtain ⟨err | (_ | user), env', db'⟩ := x
  · cases h
  · dsimp only at h ⊢
    rw [run_bind] at h ⊢
    generalize (generateFromPassword bc password).run serve (env', db') = x at h ⊢
    obtain ⟨err | hash, env'', db''⟩ := x
    · cases h
    · dsimp only at h ⊢
      rw [run_bind_ret serve (by rintro (_ | _) <;> exact ⟨_, rfl⟩)]
      rw [run_bind] at h
      rcases hrun : ((UserStore.createUser username hash roleAdmin).run serve (env'', db'')).1 with err | u
      · rw [hrun] at h
        cases h
      · exact hasAdmin_createUser hrun
  · cases h

/-- A setup request that succeeds has left an admin. -/
theorem hasAdmin_completeSetup {body : Option SetupRequest} {env : Surroundings} {db : Database}
    (h : ((SetupHandler.completeSetup bc body).run serve (env, db)).1.Success) :
    ((SetupHandler.completeSetup bc body).run serve (env, db)).2.2.users.HasAdmin := by
  rw [SetupHandler.completeSetup, run_bind] at h ⊢
  generalize SettingsStore.isSetupComplete.run serve (env, db) = x at h ⊢
  obtain ⟨err | (_ | _), env', db'⟩ := x
  · exact absurd h (jsonError_not_success _ (by decide))
  · dsimp only at h ⊢
    rcases body with _ | req
    · exact absurd h (jsonError_not_success _ (by decide))
    · simp only [SetupHandler.createAdmin] at h ⊢
      split_ifs at h ⊢
      · exact absurd h (jsonError_not_success _ (by decide))
      · exact absurd h (jsonError_not_success _ (by decide))
      · rw [run_bind] at h ⊢
        rcases hrun : ((Service.setupAdmin bc req.adminUsername req.adminPassword).run serve (env', db')).1
          with err | ⟨⟩
        · rw [hrun] at h
          dsimp only at h
          split_ifs at h <;> exact absurd h (jsonError_not_success _ (by decide))
        · refine hasAdmin_run ?_ _ (hasAdmin_setupAdmin bc hrun)
          refine (allCalls_setSetting (fun _ => .inl rfl) fun _ => .inl rfl).bind ?_
          rintro (err | ⟨⟩) <;> trivial
  · exact absurd h (jsonError_not_success _ (by decide))

/-- Once setup has completed, requests that come one after another leave an admin in every state, as
    long as none of them demotes the last one; and on a database that works only as long. -/
theorem admin_remains {body : Option SetupRequest} {env : Surroundings} {db : Database}
    (hsetup : ((SetupHandler.completeSetup bc body).run serve (env, db)).1.Success)
    (reqs : List (AccountRequest × Surroundings)) :
    (Runs.Each (served bc) (fun db x => ¬DemotesLastAdmin db x) (served bc db (.setup body, env)) reqs →
      Runs.Always (served bc) (fun db => db.users.HasAdmin) (served bc db (.setup body, env)) reqs) ∧
    ((∀ x ∈ reqs, x.2.Works) →
      Runs.Always (served bc) (fun db => db.users.HasAdmin) (served bc db (.setup body, env)) reqs →
      Runs.Each (served bc) (fun db x => ¬DemotesLastAdmin db x) (served bc db (.setup body, env)) reqs) := by
  constructor
  · exact Runs.Each.always (I := fun db : Database => db.users.HasAdmin)
      (fun _ _ => hasAdmin_served bc)
      (hasAdmin_completeSetup bc hsetup)
  · intro hworks
    refine Runs.Always.each (D := fun _ x => x.2.Works) ?_ (Runs.each_of_forall _ fun x hx _ => hworks x hx)
    intro db x hx _ hnext hdemotes
    exact no_admin_served bc hx hdemotes hnext

end Run

def firstSetup : SetupRequest :=
  { adminUsername := "a"
    adminPassword := "password" }

def firstLogin : AccountRequest :=
  .login (some
    { username := "a"
      password := "password" })

/-- The session that `firstLogin` opens. -/
def firstSession : AuthHeaders := { sessionCookie := some (hexString (takeBytes 32 [])) }

/-- A second admin is created, and then the first one becomes a user. -/
def handover : List (AccountRequest × Surroundings) :=
  [(firstLogin, {}),
    (.createUser firstSession (some { username := "b", password := "password", role := "admin" }), {}),
    (.updateUser firstSession "1" (some { role := "user" }), {})]

theorem admin_remains_handover :
    let db := served plainBcrypt .empty (.setup (some firstSetup), {})
    (handover.foldl (served plainBcrypt) db).users.rows.map (·.role) = [roleUser, roleAdmin] ∧
      Runs.Always (served plainBcrypt) (fun db => db.users.HasAdmin) db handover := by
  refine ⟨by decide +kernel, (admin_remains plainBcrypt (by decide +kernel) _).1 ⟨id, id, ?_, trivial⟩⟩
  -- the second admin is none the update is about
  rintro ⟨-, ⟨id, hid, honly⟩, -⟩
  obtain rfl : 1 = id := Option.some.inj hid
  revert honly
  decide +kernel

/-- The only admin, signed in, makes a user of themselves. -/
theorem last_admin_demoted : ¬∀ (bc : Bcrypt) (body : Option SetupRequest) (env : Surroundings)
    (db : Database), ((SetupHandler.completeSetup bc body).run serve (env, db)).1.Success →
    ∀ reqs, Runs.Always (served bc) (fun db => db.users.HasAdmin) (served bc db (.setup body, env))
      reqs := by
  intro hall
  have halways := hall plainBcrypt (some firstSetup) {} .empty (by decide +kernel)
    [(firstLogin, {}), (.updateUser firstSession "1" (some { role := "user" }), {})]
  exact absurd halways.2.2.head (by decide +kernel)

end VaultsSyncer
