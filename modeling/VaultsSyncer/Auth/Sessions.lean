import VaultsSyncer.Auth.Callers
import VaultsSyncer.Auth.Effects
import VaultsSyncer.Auth.Removal

/-! What a session token is good for. Over a run of operations, the table of sessions is what the
    history says: a row for each token that was issued by a login and since then neither logged out
    nor its user deleted (`SessionsRecorded`). So the middleware lets a request through on the strength of
    the history, the clock, and the role its user has by now (`session_authority`). -/

namespace VaultsSyncer

open GoStd Schemes Schemes.Prog

/-- The operations on accounts and sessions. -/
inductive Operation where
  | setupAdmin (username password : String)
  | createUser (username password role : String)
  | login (username password : String)
  | logout (token : String)
  | deleteUser (userID : ℤ)
  | changeRole (userID : ℤ) (role : String)
  | changePassword (userID : ℤ) (newPassword : String)

/-- What the history notes of an operation that went through. -/
inductive AuthEvent where
  | issued (token : String) (userID t₀ : ℤ)
  | loggedOut (token : String)
  | deleted (userID : ℤ)
  deriving DecidableEq

/-- What an operation does to the database, and what is noted of it; a login is dated by the clock it
    reckons the expiry from. -/
def Operation.perform (bc : Bcrypt) : Operation → Surroundings → Database → Option AuthEvent × Database
  | .setupAdmin username password, env, db =>
    (none, ((Service.setupAdmin bc username password).run serve (env, db)).2.2)
  | .createUser username password role, env, db =>
    (none, ((Service.createUser bc username password role).run serve (env, db)).2.2)
  | .login username password, env, db =>
    match (Service.login bc username password).run serve (env, db) with
    | (.error _, _, db') => (none, db')
    | (.ok token, _, db') =>
      ((db.users.byUsername username).map fun u => .issued token u.id env.clock.head, db')
  | .logout token, env, db =>
    match (Service.logout token).run serve (env, db) with
    | (.error _, _, db') => (none, db')
    | (.ok (), _, db') => (some (.loggedOut token), db')
  | .deleteUser userID, env, db =>
    match (Service.deleteUser userID).run serve (env, db) with
    | (.error _, _, db') => (none, db')
    | (.ok (), _, db') => (some (.deleted userID), db')
  | .changeRole userID role, env, db =>
    (none, ((Service.changeRole userID role).run serve (env, db)).2.2)
  | .changePassword userID newPassword, env, db =>
    (none, ((Service.changePassword bc userID newPassword).run serve (env, db)).2.2)

/-- The runs of operations on a working database, from a fresh store: the history, latest first, and
    the database. -/
inductive Reached (bc : Bcrypt) : List AuthEvent → Database → Prop
  | fresh : Reached bc [] .empty
  | perform {hist db} (op : Operation) (env : Surroundings) (h : env.Works) :
      Reached bc hist db →
        Reached bc ((op.perform bc env db).1.toList ++ hist) (op.perform bc env db).2

/-- The token was issued to the user at that time, and since then there was no logout with it and the
    user was not deleted. -/
def Standing (hist : List AuthEvent) (token : String) (userID t₀ : ℤ) : Prop :=
  ∃ since before, hist = since ++ .issued token userID t₀ :: before ∧ .loggedOut token ∉ since ∧
    .deleted userID ∉ since

theorem standing_nil {token : String} {userID t₀ : ℤ} : ¬Standing [] token userID t₀ := by
  rintro ⟨since, before, h, -⟩
  simp at h

theorem standing_cons {e : AuthEvent} {hist : List AuthEvent} {token : String} {userID t₀ : ℤ} :
    Standing (e :: hist) token userID t₀ ↔ e = .issued token userID t₀ ∨
      e ≠ .loggedOut token ∧ e ≠ .deleted userID ∧ Standing hist token userID t₀ := by
  constructor
  · rintro ⟨_ | ⟨e', since⟩, before, h, hlogout, hdeleted⟩
    · rw [List.nil_append, List.cons.injEq] at h
      exact .inl h.1
    · rw [List.cons_append, List.cons.injEq] at h
      rw [List.mem_cons, not_or] at hlogout hdeleted
      obtain ⟨rfl, rfl⟩ := h
      exact .inr ⟨Ne.symm hlogout.1, Ne.symm hdeleted.1, since, before, rfl, hlogout.2, hdeleted.2⟩
  · rintro (rfl | ⟨hlogout, hdeleted, since, before, rfl, hlogout', hdeleted'⟩)
    · exact ⟨[], hist, rfl, by simp, by simp⟩
    · exact ⟨e :: since, before, rfl, by simp [hlogout.symm, hlogout'],
        by simp [hdeleted.symm, hdeleted']⟩

/-- The table of sessions is what the history says. -/
structure SessionsRecorded (hist : List AuthEvent) (db : Database) : Prop where
  standing : ∀ token userID t₀, Standing hist token userID t₀ ↔
    ∃ s, db.sessions.lookup token = some s ∧ s.userID = userID ∧ s.expiresAt = t₀ + sessionTTL
  named : ∀ token s, db.sessions.lookup token = some s → token ≠ ""

theorem recorded_fresh : SessionsRecorded [] .empty where
  standing token userID t₀ := by
    constructor
    · intro h
      exact absurd h standing_nil
    · rintro ⟨s, hs, -⟩
      cases hs
  named _ _ hs := by cases hs

variable {hist : List AuthEvent} {db : Database}

theorem SessionsRecorded.of_sessions (h : SessionsRecorded hist db) {db' : Database}
    (hsame : db'.sessions = db.sessions) : SessionsRecorded hist db' where
  standing := by
    rw [hsame]
    exact h.standing
  named := by
    rw [hsame]
    exact h.named

theorem SessionsRecorded.issued (h : SessionsRecorded hist db) {userID t₀ t : ℤ} {token : String}
    (hname : token ≠ "") (htoken : db.sessions.lookup token = none)
    (huser : db.users.lookup userID ≠ none) :
    SessionsRecorded (.issued token userID t₀ :: hist)
      (db.insertSession userID token (t₀ + sessionTTL) t htoken huser) where
  standing token' userID' t₀' := by
    rw [standing_cons]
    simp only [Database.insertSession, Table.Keyed.lookup_insert, AuthEvent.issued.injEq, ne_eq,
      reduceCtorEq, not_false_eq_true, true_and, h.standing]
    rcases eq_or_ne token' token with rfl | hne
    · simp [htoken]
    · simp [hne, hne.symm]
  named token' s hs := by
    simp only [Database.insertSession, Table.Keyed.lookup_insert] at hs
    split_ifs at hs with htoken'
    · rwa [htoken']
    · exact h.named token' s hs

/-- Sessions taken out of the table, and of the history by an event. -/
theorem SessionsRecorded.filter (h : SessionsRecorded hist db) {e : AuthEvent} {p : Session → Bool}
    {db' : Database}
    (hlookup : ∀ token, db'.sessions.lookup token = (db.sessions.lookup token).filter p)
    (he : ∀ token userID t₀, e ≠ .issued token userID t₀)
    (hp : ∀ s, p s = true ↔ e ≠ .loggedOut s.token ∧ e ≠ .deleted s.userID) :
    SessionsRecorded (e :: hist) db' where
  standing token userID t₀ := by
    rw [standing_cons, h.standing]
    simp only [he, false_or, hlookup, Option.filter_eq_some_iff]
    constructor
    · rintro ⟨hlogout, hdeleted, s, hs, rfl, hexp⟩
      exact ⟨s, ⟨hs, (hp s).mpr ⟨Table.lookup_key hs ▸ hlogout, hdeleted⟩⟩, rfl, hexp⟩
    · rintro ⟨s, ⟨hs, hkept⟩, rfl, hexp⟩
      obtain ⟨hlogout, hdeleted⟩ := (hp s).mp hkept
      exact ⟨Table.lookup_key hs ▸ hlogout, hdeleted, s, hs, rfl, hexp⟩
  named token s hs := by
    rw [hlookup, Option.filter_eq_some_iff] at hs
    exact h.named token s hs.1

/-! ### What each operation does to the sessions -/

/-- A statement that leaves the table of sessions alone. -/
def Stmt.KeepsSessions : Stmt → Bool
  | .insertSession _ _ _ _ | .deleteSession _ | .deleteSessionsOf _ | .deleteUser _ => false
  | _ => true

theorem Stmt.exec_keepsSessions {s : Stmt} (h : s.KeepsSessions = true) (db : Database) :
    (s.exec db).2.sessions = db.sessions := by
  cases s <;> simp only [KeepsSessions, Bool.false_eq_true] at h <;> simp only [exec] <;>
    first
    | rfl
    | (split_ifs <;> rfl)

theorem run_keepsSessions {α : Type} {q : Db α}
    (hq : q.AllCalls (DbCall.Only fun s => s.KeepsSessions = true)) (env : Surroundings)
    (db : Database) : (q.run serve (env, db)).2.2.sessions = db.sessions :=
  run_keeps Database.sessions (fun _ d h => Stmt.exec_keepsSessions h d) hq env db

theorem lookup_filterSessions (db : Database) (p : Session → Bool) (token : String) :
    (db.filterSessions p).sessions.lookup token = (db.sessions.lookup token).filter p :=
  Table.lookup_filter db.sessions.keys_nodup p token

theorem lookup_sessions_deleteUser (db : Database) (userID : ℤ) (token : String) :
    (db.deleteUser userID).sessions.lookup token =
      (db.sessions.lookup token).filter fun s => s.userID ≠ userID :=
  lookup_filterSessions db _ token

theorem hexString_ne_empty {b : Bytes} (h : b ≠ []) : hexString b ≠ "" := by
  obtain ⟨x, b, rfl⟩ := List.exists_cons_of_ne_nil h
  intro hempty
  have hlist := congrArg String.toList hempty
  simp [hexString] at hlist

section

variable (bc : Bcrypt)

/-- A login fails and writes nothing, or it opens a session under a new token. -/
theorem run_login {env : Surroundings} (h : env.Works) (username password : String) (db : Database) :
    ∃ env', (∃ err, (Service.login bc username password).run serve (env, db) = (.error err, env', db)) ∨
      ∃ user token t, ∃ (htoken : db.sessions.lookup token = none)
        (huser : db.users.lookup user.id ≠ none), db.users.byUsername username = some user ∧
        token ≠ "" ∧ (Service.login bc username password).run serve (env, db) = (.ok token, env',
          db.insertSession user.id token (env.clock.head + sessionTTL) t htoken huser) := by
  rw [Service.login, run_bind, run_getUserByUsername h]
  rcases hrow : db.users.byUsername username with _ | user
  · exact ⟨env.next, .inl ⟨_, rfl⟩⟩
  dsimp only
  split_ifs
  · exact ⟨env.next, .inl ⟨_, rfl⟩⟩
  rw [generateToken, bind_assoc, run_bind, run_randRead]
  rcases hrandom : env.next.random.head with err | b
  · exact ⟨env.next.drawn, .inl ⟨_, rfl⟩⟩
  simp only [Except.map, pure_eq, ret_bind, run_bind, run_now, UserStore.createSession,
    run_exec h.next.drawn.tick.tick, Stmt.exec]
  refine ⟨env.next.drawn.tick.tick.next, ?_⟩
  by_cases hnew : db.sessions.lookup (hexString (takeBytes 32 b)) = none ∧
      db.users.lookup user.id ≠ none
  · refine .inr ⟨user, hexString (takeBytes 32 b), env.clock.tail.head, hnew.1, hnew.2, rfl, ?_, ?_⟩
    · exact hexString_ne_empty (by simp [takeBytes, List.range_succ])
    · simp only [hnew, ne_eq, not_false_eq_true, and_self, ↓reduceDIte, Except.mapError]
      rfl
  · refine .inl ?_
    simp only [hnew, ↓reduceDIte]
    split_ifs <;> exact ⟨_, rfl⟩

/-- The history stays true to the table. -/
theorem SessionsRecorded.perform (h : SessionsRecorded hist db) (op : Operation) {env : Surroundings}
    (henv : env.Works) :
    SessionsRecorded ((op.perform bc env db).1.toList ++ hist) (op.perform bc env db).2 := by
  cases op with
  | setupAdmin username password =>
    exact h.of_sessions (run_keepsSessions (allCalls_setupAdmin bc rfl fun _ _ _ => rfl) _ _)
  | createUser username password role =>
    exact h.of_sessions (run_keepsSessions (allCalls_serviceCreateUser bc rfl fun _ _ => rfl) _ _)
  | login username password =>
    rw [Operation.perform]
    obtain ⟨env', ⟨err, hrun⟩ | ⟨user, token, t, htoken, huser, hrow, hname, hrun⟩⟩ :=
      run_login bc henv username password db
    · rw [hrun]
      exact h
    · rw [hrun, hrow]
      exact h.issued hname htoken huser
  | logout token =>
    rw [Operation.perform, Service.logout, run_bind, UserStore.deleteSession, run_exec henv]
    refine h.filter (lookup_filterSessions db _) (by simp) fun s => ?_
    simp [@eq_comm _ token s.token]
  | deleteUser userID =>
    rw [Operation.perform, Service.deleteUser, run_bind]
    obtain ⟨env', hworks', ⟨hfault, -⟩ | hrun⟩ := run_mayDelete userID env db
    · exact absurd henv hfault
    rw [hrun]
    rcases hmay : db.users.verdict userID with err | (_ | ⟨⟩)
    · exact h
    · -- no user has this id, so no session does either
      simp only [pure_eq, run_ret]
      refine h.filter (p := fun s => s.userID ≠ userID) (fun token => ?_) (by simp) fun s => ?_
      · rcases hrow : db.sessions.lookup token with _ | s
        · rfl
        · have hne : s.userID ≠ userID := by
            rintro rfl
            exact db.sessions_users s (Table.lookup_mem hrow) (UserTable.verdict_none hmay)
          simp [Option.filter_some, hne]
      · simp [@eq_comm _ userID s.userID]
    · dsimp only
      rw [run_deleteUser (hworks' henv)]
      refine h.filter (p := fun s => s.userID ≠ userID) (fun token => ?_) (by simp) fun s => ?_
      · rw [lookup_sessions_deleteUser, lookup_filterSessions, Option.filter_filter]
        simp
      · simp [@eq_comm _ userID s.userID]
  | changeRole userID role =>
    exact h.of_sessions (run_keepsSessions (allCalls_changeRole fun _ => rfl) _ _)
  | changePassword userID newPassword =>
    exact h.of_sessions (run_keepsSessions (allCalls_changePassword bc fun _ _ => rfl) _ _)

theorem Reached.recorded {hist : List AuthEvent} {db : Database} (h : Reached bc hist db) :
    SessionsRecorded hist db := by
  induction h with
  | fresh => exact recorded_fresh
  | perform op env henv _ ih => exact ih.perform bc op henv

/-- After any run of operations, a request passes `RequireAuth` exactly if its token was issued by a
    login less than 24 hours ago, with no logout since, and the user has not been deleted since; and
    `RequireAdmin` after it exactly if the user's role is now that of an admin. -/
theorem session_authority {hist : List AuthEvent} {db : Database} (h : Reached bc hist db)
    (r : AuthHeaders) {env : Surroundings} (henv : env.Works) :
    ((∃ user, ((requireAuth r).run serve (env, db)).1 = .ok user) ↔
      ∃ userID t₀, Standing hist (extractToken r) userID t₀ ∧ env.clock.head < t₀ + sessionTTL) ∧
    ((∃ user, ((requireAuth r).run serve (env, db)).1 = .ok user ∧ requireAdmin user = .ok user) ↔
      ∃ userID t₀, Standing hist (extractToken r) userID t₀ ∧ env.clock.head < t₀ + sessionTTL ∧
        (db.users.lookup userID).map User.role = some roleAdmin) := by
  obtain ⟨env', -, -, ⟨hfault, -⟩ | hrun⟩ := run_requireAuth r env db
  · exact absurd henv hfault
  simp only [hrun, admission_eq_ok]
  have hrec := h.recorded
  constructor
  · rw [Database.caller_isSome]
    constructor
    · rintro ⟨-, s, hs, hnow⟩
      refine ⟨s.userID, s.expiresAt - sessionTTL, (hrec.standing _ _ _).mpr ⟨s, hs, rfl, ?_⟩, ?_⟩ <;>
        omega
    · rintro ⟨userID, t₀, hstanding, hnow⟩
      obtain ⟨s, hs, rfl, hexp⟩ := (hrec.standing _ _ _).mp hstanding
      exact ⟨hrec.named _ s hs, s, hs, by omega⟩
  · constructor
    · rintro ⟨user, huser, hadmin⟩
      obtain ⟨-, s, hs, hnow, hfound⟩ := Database.caller_eq_some.mp huser
      refine ⟨s.userID, s.expiresAt - sessionTTL, (hrec.standing _ _ _).mpr ⟨s, hs, rfl, ?_⟩, ?_, ?_⟩
      · omega
      · omega
      · rw [hfound, Option.map_some, (requireAdmin_eq_ok.mp hadmin)]
    · rintro ⟨userID, t₀, hstanding, hnow, hrole⟩
      obtain ⟨s, hs, rfl, hexp⟩ := (hrec.standing _ _ _).mp hstanding
      obtain ⟨user, hfound, hadmin⟩ := Option.map_eq_some_iff.mp hrole
      refine ⟨user, Database.caller_eq_some.mpr ⟨hrec.named _ s hs, s, hs, by omega, hfound⟩, ?_⟩
      exact requireAdmin_eq_ok.mpr hadmin

end

/-- An admin set up and signed in passes both checks a day minus a second later. -/
theorem session_authority_admin :
    let setup := (Operation.setupAdmin "a" "password").perform plainBcrypt {} .empty
    let login := (Operation.login "a" "password").perform plainBcrypt {} setup.2
    ∃ user, ((requireAuth { sessionCookie := some (hexString (takeBytes 32 [])) }).run serve
      ({ clock := Stream'.const 86399 }, login.2)).1 = .ok user ∧ requireAdmin user = .ok user := by
  have hfresh : Reached plainBcrypt [] .empty := .fresh
  have hreached := hfresh.perform (.setupAdmin "a" "password") {} Surroundings.works_default
  refine (session_authority plainBcrypt (hreached.perform (.login "a" "password") {}
    Surroundings.works_default) _ (fun _ => rfl)).2.mpr ⟨1, 0, ?_, by decide, by decide +kernel⟩
  exact ⟨[], [], by decide +kernel, by simp, by simp⟩

end VaultsSyncer
