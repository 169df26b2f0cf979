import VaultsSyncer.Api.LastAdmin
import VaultsSyncer.Storage.ConfigWrites

/-! What requests that fail leave behind. `UpdateUser` writes the password before it looks at the role,
    and `CompleteSetup` creates the admin before it writes the marker: each of them is all or nothing
    exactly where nothing fails between its two halves (`update_atomic_iff`, `setup_atomic_iff`). -/

namespace VaultsSyncer

open GoStd Schemes Schemes.Prog

/-! ### `UpdateUser` -/

/-- The role half ends the request in an error: the role is none of the two, or its statement fails. -/
def RoleRefused (role : String) (env : Surroundings) : Prop :=
  role ≠ "" ∧ ((role ≠ roleAdmin ∧ role ≠ roleUser) ∨ env.faults.head ≠ none)

theorem run_roleHalf (userID : ℤ) (role : String) (env : Surroundings) (db : Database) :
    (RoleRefused role env ∧ ∃ reply env', ¬reply.Success ∧
      (UsersHandler.updateRole userID role).run serve (env, db) = (some reply, env', db)) ∨
    (¬RoleRefused role env ∧ ((UsersHandler.updateRole userID role).run serve (env, db)).1 = none) := by
  rw [UsersHandler.updateRole]
  split_ifs with hempty hrole
  · exact .inr ⟨fun h => h.1 hempty, rfl⟩
  · exact .inl ⟨⟨hempty, .inl hrole⟩, _, _, jsonError_not_success _ (by norm_num), rfl⟩
  · simp only [Service.changeRole, UserStore.updateUserRole, run_bind, run_now]
    rcases hhead : env.faults.head with _ | err
    · rw [run_exec_of_head (show env.tick.faults.head = none from hhead)]
      exact .inr ⟨fun h => h.2.elim hrole fun hne => hne hhead, rfl⟩
    · rw [run_exec_of_fault (show env.tick.faults.head = some err from hhead)]
      refine .inl ⟨⟨hempty, .inr ?_⟩, _, _, jsonError_not_success _ (by norm_num), rfl⟩
      rw [hhead]
      simp

/-- What a login and the rights of a user rest on. -/
def User.credentials (u : User) : String × String := (u.passwordHash, u.role)

/-- The password hashes and the roles are what they were, and so is all of every user but the one of
    the request. -/
structure AccountsKept (userID : String) (db db' : Database) : Prop where
  credentials : ∀ i, (db'.users.lookup i).map User.credentials =
    (db.users.lookup i).map User.credentials
  others : ∀ i, parseInt64 userID ≠ some i → db'.users.lookup i = db.users.lookup i

theorem AccountsKept.refl (userID : String) (db : Database) : AccountsKept userID db db :=
  ⟨fun _ => rfl, fun _ _ => rfl⟩

/-- The update leaves the user with a new password and then refuses the role. -/
def HalfUpdated (bc : Bcrypt) (env : Surroundings) (db : Database) (userID : String)
    (body : Option UpdateUserRequest) : Prop :=
  ∃ id req u hash, parseInt64 userID = some id ∧ body = some req ∧ db.users.lookup id = some u ∧
    PasswordHashed bc req.password env hash ∧ hash ≠ u.passwordHash ∧ env.faults.head = none ∧
    RoleRefused req.role { env with faults := env.faults.tail }

theorem lookup_updateUserPassword (id : ℤ) (hash : String) (t : ℤ) (db : Database) (i : ℤ) :
    ((Stmt.updateUserPassword id hash t).exec db).2.users.lookup i =
      if i = id then (db.users.lookup id).map fun u => { u with passwordHash := hash, updatedAt := t }
      else db.users.lookup i := by
  simp only [Stmt.exec, Database.setUser, UserTable.set]
  exact Table.Keyed.lookup_modify _ _ _ _ _

/-- A new password leaves all credentials as they were exactly if the user has it already, or is
    not there. -/
theorem accountsKept_updateUserPassword {userID : String} {id : ℤ} (hid : parseInt64 userID = some id)
    (hash : String) (t : ℤ) (db : Database) :
    AccountsKept userID db ((Stmt.updateUserPassword id hash t).exec db).2 ↔
      ∀ u, db.users.lookup id = some u → hash = u.passwordHash := by
  constructor
  · intro h u hu
    have hcred := h.credentials id
    rw [lookup_updateUserPassword, if_pos rfl, hu] at hcred
    simp only [Option.map_some, User.credentials, Option.some.injEq, Prod.mk.injEq] at hcred
    exact hcred.1
  · intro h
    constructor <;> intro i <;> rw [lookup_updateUserPassword]
    · split_ifs with hi
      · subst hi
        rcases hu : db.users.lookup i with _ | u
        · rfl
        · simp [User.credentials, h u hu]
      · rfl
    · rintro hne
      rw [if_neg]
      rintro rfl
      exact hne hid

/-- An error of `UpdateUser` changes nobody's password or role, and no other user, exactly if no role is
    refused after a password has been changed. -/
theorem update_atomic_iff (bc : Bcrypt) (userID : String) (body : Option UpdateUserRequest)
    (env : Surroundings) (db : Database) :
    (¬((UsersHandler.updateUser bc userID body).run serve (env, db)).1.Success →
      AccountsKept userID db ((UsersHandler.updateUser bc userID body).run serve (env, db)).2.2) ↔
    ¬HalfUpdated bc env db userID body := by
  rw [UsersHandler.updateUser]
  rcases hid : parseInt64 userID with _ | id
  · refine iff_of_true (fun _ => .refl userID db) ?_
    rintro ⟨id, _, _, _, hid', -⟩
    rw [hid] at hid'
    cases hid'
  rcases body with _ | req
  · refine iff_of_true (fun _ => .refl userID db) ?_
    rintro ⟨_, _, _, _, -, hbody, -⟩
    cases hbody
  dsimp only
  have hhalf := run_passwordHalf bc id req.password env db
  rw [run_bind]
  generalize (UsersHandler.updatePassword bc id req.password).run serve (env, db) = x at hhalf
  cases hhalf with
  | skipped h =>
    refine iff_of_true ?_ ?_
    · dsimp only
      rw [run_bind]
      rcases run_roleHalf id req.role env db with ⟨-, reply, env', -, hrun⟩ | ⟨-, hnone⟩
      · rw [hrun]
        exact fun _ => .refl userID db
      · rw [hnone]
        exact fun hfail => absurd (jsonOK_success _) hfail
    · rintro ⟨_, _, _, _, -, hbody, -, hhash, -⟩
      obtain rfl := Option.some.inj hbody
      have hlong := hhash.long
      rw [h] at hlong
      exact absurd hlong (by decide)
  | refused hreply hne hworks h =>
    refine iff_of_true (fun _ => .refl userID db) ?_
    rintro ⟨_, _, _, _, -, hbody, -, hhash, -, hworks, -⟩
    obtain rfl := Option.some.inj hbody
    exact h ⟨⟨_, hhash⟩, hworks⟩
  | @changed hash env' h hworks henv =>
    have hrole : RoleRefused req.role { env with faults := env.faults.tail } ↔
        RoleRefused req.role env' := by
      rw [RoleRefused, RoleRefused, henv]
    dsimp only
    rw [run_bind]
    rcases run_roleHalf id req.role env' ((Stmt.updateUserPassword id hash env.clock.head).exec db).2
      with ⟨hrefused, reply, env₂, hreply, hrun⟩ | ⟨hpassed, hnone⟩
    · rw [hrun]
      refine (imp_iff_right hreply).trans
        ((accountsKept_updateUserPassword hid hash env.clock.head db).trans ?_)
      constructor
      · rintro hsame ⟨id', _, u, _, hid', hbody, hu, hhash, hne, -⟩
        obtain rfl := Option.some.inj hbody
        obtain rfl := Option.some.inj (hid.symm.trans hid')
        exact hne ((hhash.unique h).trans (hsame u hu))
      · intro hhalf u hu
        by_contra hne
        exact hhalf ⟨id, req, u, hash, hid, rfl, hu, h, hne, hworks, hrole.mpr hrefused⟩
    · rw [hnone]
      refine iff_of_true (fun hfail => absurd (jsonOK_success _) hfail) ?_
      rintro ⟨_, _, _, _, -, hbody, -, -, -, -, hrefused⟩
      obtain rfl := Option.some.inj hbody
      exact hpassed (hrole.mp hrefused)

/-- A password, and a role there is not: the reply is an error, and the password is the new one. -/
theorem password_changed_before_role : ∃ env db,
    ¬(¬((UsersHandler.updateUser plainBcrypt "1"
          (some { password := "password", role := "owner" })).run serve (env, db)).1.Success →
      AccountsKept "1" db ((UsersHandler.updateUser plainBcrypt "1"
        (some { password := "password", role := "owner" })).run serve (env, db)).2.2) := by
  let db := ((Stmt.insertUser "alice" "old" roleUser 0).exec .empty).2
  have hrun : ((UsersHandler.updateUser plainBcrypt "1" (some { password := "password", role := "owner" })).run
      serve ({}, db)).1.status = 400 ∧
    ((((UsersHandler.updateUser plainBcrypt "1" (some { password := "password", role := "owner" })).run
      serve ({}, db)).2.2.users.lookup 1).map User.credentials) = some ("password", "user") := by
    decide +kernel
  refine ⟨{}, db, fun h => ?_⟩
  have hkept := (h fun hok => ?_).credentials 1
  · rw [hrun.2] at hkept
    exact absurd hkept (by decide +kernel)
  · have hlt := hok.2
    rw [hrun.1] at hlt
    omega

/-! ### `CompleteSetup` -/

/-- A setup request that would be carried out here: acceptable, and under a free username. -/
def ValidSetup (body : Option SetupRequest) (db : Database) : Prop :=
  ∃ username, AcceptableSetup body username ∧ db.users.byUsername username = none

/-- The user is inserted: its statement works, and all that comes before it. -/
structure SetupInserts (body : Option SetupRequest) (env : Surroundings) (db : Database) : Prop where
  valid : ValidSetup body db
  works : ∀ k < 3, env.faults.get k = none
  salted : ∃ salt, env.random.head = .ok salt

/-- No statement fails after the user was inserted: the one that reads the user back, and those that
    write the marker. -/
def SetupGoesOn (env : Surroundings) : Prop := ∀ k < 4, env.faults.get (k + 3) = none

/-- The faults of a number of calls, by the first of them. -/
theorem works_succ (faults : Stream' (Option GoError)) (n : ℕ) :
    (∀ k < n + 1, faults.get k = none) ↔
      faults.head = none ∧ ∀ k < n, faults.tail.get k = none := Nat.forall_lt_succ_left

theorem not_works_succ {faults : Stream' (Option GoError)} {err : GoError}
    (h : faults.head = some err) (n : ℕ) : ¬∀ k < n + 1, faults.get k = none := by
  intro hworks
  have hhead := ((works_succ faults n).mp hworks).1
  rw [h] at hhead
  cases hhead

/-- A setting that is not there is written with three calls, and is written exactly if they all work. -/
theorem run_setSetting_iff {key : String} (value : String) (env : Surroundings) {db : Database}
    (hfree : db.appSettings.lookup key = none) :
    ((SettingsStore.setSetting key value).run serve (env, db)).1 = .ok () ↔
      ∀ k < 3, env.faults.get k = none := by
  have hnone : ((Stmt.updateSetting key value env.clock.head).exec db).2.appSettings.lookup key =
      none := by
    simp only [Stmt.exec, Table.Keyed.lookup_modify, ↓reduceIte, hfree, Option.map_none]
  have hzero : db.appSettings.affected key = 0 := Table.Keyed.affected_eq_zero.mpr hfree
  rw [SettingsStore.setSetting, run_bind, run_now, run_bind]
  rcases hupdate : env.faults.head with _ | err
  · rw [run_exec_of_head (show env.tick.faults.head = none from hupdate), works_succ,
      and_iff_right hupdate]
    have hres : ((Stmt.updateSetting key value env.clock.head).exec db).1 = .ok 0 := by
      simp only [Stmt.exec, hzero]
    rw [hres]
    dsimp only [Except.mapError]
    generalize ((Stmt.updateSetting key value env.clock.head).exec db).2 = db₁ at hnone
    rw [run_bind]
    rcases hrows : env.faults.tail.head with _ | err
    · rw [run_rowsAffected_of_head (show env.tick.next.faults.head = none from hrows), works_succ,
        and_iff_right hrows]
      simp only [↓reduceIte]
      rcases hinsert : env.faults.tail.tail.head with _ | err
      · rw [run_exec_of_head (show env.tick.next.next.faults.head = none from hinsert)]
        refine iff_of_true ?_ ((works_succ _ 0).mpr ⟨hinsert, by simp⟩)
        simp [Stmt.exec, hnone, Except.mapError]
      · rw [run_exec_of_fault (show env.tick.next.next.faults.head = some err from hinsert)]
        exact iff_of_false (by rintro ⟨⟩) (not_works_succ hinsert 0)
    · rw [run_rowsAffected_of_fault (show env.tick.next.faults.head = some err from hrows)]
      exact iff_of_false (by rintro ⟨⟩) (not_works_succ hrows 1)
  · rw [run_exec_of_fault (show env.tick.faults.head = some err from hupdate)]
    exact iff_of_false (by rintro ⟨⟩) (not_works_succ hupdate 2)

/-- `SetupAdmin` gets as far as the user's row. -/
structure AdminInserts (username password : String) (env : Surroundings) (db : Database) : Prop where
  free : db.users.byUsername username = none
  short : byteLength password ≤ 72
  works : ∀ k < 2, env.faults.get k = none
  salted : ∃ salt, env.random.head = .ok salt

/-- How `SetupAdmin` ends: with nothing done, or with the row inserted and the user read back or not. -/
inductive AdminSetup (username password : String) (env : Surroundings) (db : Database) :
    Except GoError Unit × Surroundings × Database → Prop
  | refused {err : GoError} {env' : Surroundings} (h : ¬AdminInserts username password env db) :
      AdminSetup username password env db (.error err, env', db)
  | inserted {res : Except GoError Unit} {env' : Surroundings} (hash : String) (t : ℤ)
      (h : AdminInserts username password env db) (henv : env'.faults = env.faults.drop 3)
      (hres : res = .ok () ↔ env.faults.get 2 = none) :
      AdminSetup username password env db
        (res, env', db.insertUser username hash roleAdmin t h.free)

theorem run_setupAdmin (bc : Bcrypt) (username password : String) (env : Surroundings)
    (db : Database) : AdminSetup username password env db
      ((Service.setupAdmin bc username password).run serve (env, db)) := by
  rw [Service.setupAdmin, run_bind, UserStore.getUserByUsername]
  rcases hselect : env.faults.head with _ | err
  swap
  · rw [run_exec_of_fault hselect]
    exact .refused fun h => not_works_succ hselect 1 h.works
  rw [run_exec_of_head hselect]
  simp only [Stmt.exec, Except.mapError]
  rcases hfree : db.users.byUsername username with _ | u
  swap
  · refine .refused fun h => ?_
    have hnone := h.free
    rw [hfree] at hnone
    cases hnone
  dsimp only
  rw [run_bind]
  by_cases hhash : byteLength password ≤ 72 ∧ ∃ salt, env.random.head = .ok salt
  swap
  · obtain ⟨err, env', hrun, -⟩ := run_generateFromPassword_error bc
      (show ¬(byteLength password ≤ 72 ∧ ∃ salt, env.next.random.head = .ok salt) from hhash) db
    rw [hrun]
    exact .refused fun h => hhash ⟨h.short, h.salted⟩
  obtain ⟨hshort, salt, hrandom⟩ := hhash
  rw [run_generateFromPassword bc hshort (by rw [Surroundings.next_random, hrandom])]
  dsimp only
  rw [run_bind, UserStore.createUser, run_bind, run_now]
  dsimp only
  rw [run_bind]
  rcases hinsert : env.faults.tail.head with _ | err
  swap
  · rw [run_exec_of_fault (show env.next.drawn.tick.faults.head = some err from hinsert)]
    exact .refused fun h => not_works_succ hinsert 0 ((works_succ _ 1).mp h.works).2
  rw [run_exec_of_head (show env.next.drawn.tick.faults.head = none from hinsert)]
  simp only [Stmt.exec, hfree, ↓reduceDIte, Except.mapError]
  have hins : AdminInserts username password env db :=
    ⟨hfree, hshort, (works_succ _ 1).mpr ⟨hselect, (works_succ _ 0).mpr ⟨hinsert, by simp⟩⟩,
      salt, hrandom⟩
  rw [UserStore.getUserByUsername]
  rcases hback : env.faults.tail.tail.head with _ | err
  · rw [run_exec_of_head (show env.next.drawn.tick.next.faults.head = none from hback)]
    exact .inserted _ _ hins rfl (iff_of_true rfl hback)
  · rw [run_exec_of_fault (show env.next.drawn.tick.next.faults.head = some err from hback)]
    refine .inserted _ _ hins rfl (iff_of_false (by rintro ⟨⟩) fun hnone => ?_)
    rw [show env.faults.get 2 = some err from hback] at hnone
    cases hnone

theorem users_insertUser_ne (db : Database) {username : String} (hash role : String) (t : ℤ)
    (hfree : db.users.byUsername username = none) :
    (db.insertUser username hash role t hfree).users ≠ db.users := by
  intro heq
  have hlen := UserTable.length_insert db.users username hash role t hfree
  rw [show db.users.insert username hash role t hfree = db.users from heq] at hlen
  omega

/-- `CompleteSetup` on a store that is not set up: nothing is done and the reply is an error, or the
    user is inserted, and the reply is no error exactly if the rest goes through. -/
theorem run_completeSetup_cases (bc : Bcrypt) (body : Option SetupRequest) (env : Surroundings)
    {db : Database} (hopen : db.appSettings.lookup "setup_complete" = none) :
    let r := (SetupHandler.completeSetup bc body).run serve (env, db)
    (¬SetupInserts body env db ∧ ¬r.1.Success ∧ r.2.2 = db) ∨
    (SetupInserts body env db ∧ r.2.2.users ≠ db.users ∧ (r.1.Success ↔ SetupGoesOn env) ∧
      (r.1.Success → r.2.2.appSettings.lookup "setup_complete" ≠ none)) := by
  dsimp only
  rw [SetupHandler.completeSetup, run_bind, SettingsStore.isSetupComplete, run_bind,
    SettingsStore.getSetting]
  rcases hopens : env.faults.head with _ | err
  swap
  · rw [run_exec_of_fault hopens]
    exact .inl ⟨fun h => not_works_succ hopens 2 h.works, jsonError_not_success _ (by norm_num), rfl⟩
  rw [run_exec_of_head hopens]
  simp only [Stmt.exec, hopen, Except.mapError, pure_eq, run_ret, Except.map, Option.map_none,
    Option.isSome_none]
  rcases body with _ | req
  · refine .inl ⟨?_, jsonError_not_success _ (by norm_num), rfl⟩
    rintro ⟨⟨_, ⟨_, hbody, -⟩, -⟩, -⟩
    cases hbody
  simp only [SetupHandler.createAdmin]
  split_ifs with hempty hlong
  · refine .inl ⟨?_, jsonError_not_success _ (by norm_num), rfl⟩
    rintro ⟨⟨_, ⟨_, hbody, rfl, hname, hlong, -⟩, -⟩, -⟩
    obtain rfl := Option.some.inj hbody
    rcases hempty with hempty | hempty
    · exact hname hempty
    · rw [hempty] at hlong
      exact absurd hlong (by decide)
  · refine .inl ⟨?_, jsonError_not_success _ (by norm_num), rfl⟩
    rintro ⟨⟨_, ⟨_, hbody, -, -, hlong', -⟩, -⟩, -⟩
    obtain rfl := Option.some.inj hbody
    exact absurd hlong (not_lt.mpr hlong')
  rw [run_bind]
  have hadmin := run_setupAdmin bc req.adminUsername req.adminPassword env.next db
  generalize (Service.setupAdmin bc req.adminUsername req.adminPassword).run serve (env.next, db) = x
    at hadmin
  cases hadmin with
  | @refused err env' h =>
    refine .inl ⟨?_, ?_, ?_⟩
    · rintro ⟨⟨_, ⟨_, hbody, rfl, -, -, hshort⟩, hfree⟩, hworks, hsalt⟩
      obtain rfl := Option.some.inj hbody
      exact h ⟨hfree, hshort, ((works_succ _ 2).mp hworks).2, hsalt⟩
    · dsimp only
      split_ifs <;> exact jsonError_not_success _ (by norm_num)
    · dsimp only
      split_ifs <;> rfl
  | @inserted res env' hash t h henv hres =>
    have hins : SetupInserts (some req) env db :=
      ⟨⟨_, ⟨req, rfl, rfl, fun hname => hempty (.inl hname), not_lt.mp hlong, h.short⟩, h.free⟩,
        (works_succ _ 2).mpr ⟨hopens, h.works⟩, h.salted⟩
    have hgoes : SetupGoesOn env ↔ env.faults.get 3 = none ∧ ∀ k < 3, env'.faults.get k = none := by
      rw [henv]
      exact Nat.forall_lt_succ_left
    refine .inr ⟨hins, ?_⟩
    have hclosed : (db.insertUser req.adminUsername hash roleAdmin t h.free).appSettings.lookup
      "setup_complete" = none := hopen
    have hnew := users_insertUser_ne db hash roleAdmin t h.free
    generalize db.insertUser req.adminUsername hash roleAdmin t h.free = db₁ at hclosed hnew
    rcases res with err | ⟨⟩
    · have hback : env.faults.get 3 ≠ none := fun hnone => absurd (hres.mpr hnone) (by rintro ⟨⟩)
      dsimp only
      split_ifs
      all_goals
        refine ⟨hnew, iff_of_false (jsonError_not_success _ (by norm_num))
          fun hon => hback (hgoes.mp hon).1, fun hok => absurd hok (jsonError_not_success _ (by norm_num))⟩
    · rw [hgoes, and_iff_right (show env.faults.get 3 = none from hres.mp rfl),
        ← run_setSetting_iff "true" env' hclosed]
      dsimp only
      rw [SettingsStore.markSetupComplete, run_bind]
      have hkept : ((SettingsStore.setSetting "setup_complete" "true").run serve (env', db₁)).2.2.users =
          db₁.users := run_keepsUsers (allCalls_setSetting (fun _ => rfl) fun _ => rfl) env' db₁
      rcases hset : (SettingsStore.setSetting "setup_complete" "true").run serve (env', db₁) with
        ⟨err | ⟨⟩, env₂, db₂⟩
      · rw [hset] at hkept
        refine ⟨?_, iff_of_false (jsonError_not_success _ (by norm_num)) (by rintro ⟨⟩),
          fun hok => absurd hok (jsonError_not_success _ (by norm_num))⟩
        rwa [← hkept] at hnew
      · rw [hset] at hkept
        refine ⟨?_, iff_of_true (jsonOK_success _) rfl, fun _ => run_setSetting_ok hset⟩
        rwa [← hkept] at hnew

/-- An error leaves setup as it was: no user was created, setup is not complete, and a valid request goes
    through as soon as the store works. -/
structure SetupUndone (bc : Bcrypt) (body : Option SetupRequest) (db db' : Database) : Prop where
  users : db'.users = db.users
  incomplete : db'.appSettings.lookup "setup_complete" = none
  again : ValidSetup body db → ∀ env : Surroundings, env.Works → env.Draws →
    ((SetupHandler.completeSetup bc body).run serve (env, db')).1.Success ∧
    ((SetupHandler.completeSetup bc body).run serve (env, db')).2.2.appSettings.lookup
      "setup_complete" ≠ none

/-- An error of `CompleteSetup` leaves setup as it was exactly if nothing fails once the user has been
    inserted. -/
theorem setup_atomic_iff (bc : Bcrypt) (body : Option SetupRequest) (env : Surroundings)
    {db : Database} (hopen : db.appSettings.lookup "setup_complete" = none) :
    (¬((SetupHandler.completeSetup bc body).run serve (env, db)).1.Success →
      SetupUndone bc body db ((SetupHandler.completeSetup bc body).run serve (env, db)).2.2) ↔
    (SetupInserts body env db → SetupGoesOn env) := by
  rcases run_completeSetup_cases bc body env hopen with ⟨hno, hfail, hsame⟩ | ⟨hins, hnew, hiff, -⟩
  · refine iff_of_true (fun _ => ?_) fun h => absurd h hno
    rw [hsame]
    refine ⟨rfl, hopen, fun hvalid env' hworks hdraws => ?_⟩
    have hins : SetupInserts body env' db := ⟨hvalid, fun k _ => hworks k, hdraws 0⟩
    rcases run_completeSetup_cases bc body env' hopen with ⟨hno', -⟩ | ⟨-, -, hiff, hmarked⟩
    · exact absurd hins hno'
    · have hok := hiff.mpr fun k _ => hworks (k + 3)
      exact ⟨hok, hmarked hok⟩
  · constructor
    · intro h _
      by_contra hstop
      exact hnew (h (mt hiff.mp hstop)).users
    · intro h hfail
      exact absurd (hiff.mpr (h hins)) hfail

theorem setup_atomic_unread :
    SetupUndone plainBcrypt (some { adminUsername := "admin", adminPassword := "password" }) .empty
      ((SetupHandler.completeSetup plainBcrypt
        (some { adminUsername := "admin", adminPassword := "password" })).run serve
        ({ faults := Stream'.const (some (.new "database is locked")) }, .empty)).2.2 := by
  refine (setup_atomic_iff plainBcrypt _ _ rfl).mpr (fun hins => ?_) (jsonError_not_success _ (by norm_num))
  have hnone := hins.works 0 (by omega)
  cases hnone

/-- The UPDATE of the marker fails: the reply is an error, and the admin has been created. -/
theorem admin_created_before_marker : ¬∀ (bc : Bcrypt) (body : Option SetupRequest) (env : Surroundings)
    (db : Database), db.appSettings.lookup "setup_complete" = none →
    ¬((SetupHandler.completeSetup bc body).run serve (env, db)).1.Success →
      SetupUndone bc body db ((SetupHandler.completeSetup bc body).run serve (env, db)).2.2 := by
  intro hatomic
  let body : Option SetupRequest := some { adminUsername := "admin", adminPassword := "password" }
  let env : Surroundings := { faults := fun k => if k = 4 then some (.new "database is locked") else none }
  have hrun : ((SetupHandler.completeSetup plainBcrypt body).run serve (env, .empty)).1.status = 500 ∧
      ((SetupHandler.completeSetup plainBcrypt body).run serve
        (env, .empty)).2.2.users.rows.length = 1 := by decide +kernel
  have hundone := hatomic plainBcrypt body env .empty rfl fun hok => by
    have hlt := hok.2
    rw [hrun.1] at hlt
    omega
  have hlen := hrun.2
  rw [hundone.users] at hlen
  exact absurd hlen (by decide)

end VaultsSyncer
