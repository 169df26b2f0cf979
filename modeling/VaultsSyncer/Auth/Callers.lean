import VaultsSyncer.Auth.Middleware
import VaultsSyncer.Storage.Effects

/-! Whom a request speaks for, as the database has it, and that the middleware finds just that. -/

namespace VaultsSyncer

open GoStd Schemes Schemes.Prog

/-- The user whose session is under the token and has not run out. -/
def Database.caller (db : Database) (token : String) (now : ℤ) : Option User :=
  if token = "" then none
  else ((db.sessions.lookup token).filter fun s => s.expiresAt > now).bind fun s =>
    db.users.lookup s.userID

theorem Database.caller_eq_some {db : Database} {token : String} {now : ℤ} {user : User} :
    db.caller token now = some user ↔ token ≠ "" ∧ ∃ s, db.sessions.lookup token = some s ∧
      now < s.expiresAt ∧ db.users.lookup s.userID = some user := by
  simp only [caller]
  split_ifs with htoken
  · simp [htoken]
  · simp [htoken, Option.bind_eq_some_iff, Option.filter_eq_some_iff, and_assoc]

/-- A session has a user. -/
theorem Database.caller_isSome {db : Database} {token : String} {now : ℤ} :
    (∃ user, db.caller token now = some user) ↔
      token ≠ "" ∧ ∃ s, db.sessions.lookup token = some s ∧ now < s.expiresAt := by
  constructor
  · rintro ⟨user, huser⟩
    obtain ⟨htoken, s, hs, hnow, -⟩ := Database.caller_eq_some.mp huser
    exact ⟨htoken, s, hs, hnow⟩
  · rintro ⟨htoken, s, hs, hnow⟩
    obtain ⟨user, huser⟩ := Option.ne_none_iff_exists'.mp (db.sessions_users s (Table.lookup_mem hs))
    exact ⟨user, Database.caller_eq_some.mpr ⟨htoken, s, hs, hnow, huser⟩⟩

/-- What the middleware answers where it finds this user, or none. -/
def admission (caller : Option User) : Except ApiReply User :=
  caller.elim (.error (jsonError "unauthorized" 401)) .ok

theorem admission_eq_ok {caller : Option User} {user : User} :
    admission caller = .ok user ↔ caller = some user := by
  cases caller <;> simp [admission]

theorem requireAdmin_eq_ok {user : User} : requireAdmin user = .ok user ↔ user.role = roleAdmin := by
  simp only [requireAdmin]
  split_ifs with hrole <;> simpa using hrole

/-- The middleware writes nothing, and if no statement of it fails it lets through the user the token
    speaks for. -/
theorem run_requireAuth (r : AuthHeaders) (env : Surroundings) (db : Database) :
    ∃ env', (env.Works → env'.Works) ∧ env'.random = env.random ∧
      ((¬env.Works ∧
          (requireAuth r).run serve (env, db) = (.error (jsonError "unauthorized" 401), env', db)) ∨
        (requireAuth r).run serve (env, db) =
          (admission (db.caller (extractToken r) env.clock.head), env', db)) := by
  by_cases htoken : extractToken r = ""
  · exact ⟨env, id, rfl, .inr (by simp [requireAuth, Database.caller, admission, htoken])⟩
  simp only [requireAuth, Service.validateSession, UserStore.getSessionByToken,
    UserStore.getUserByID, htoken, ↓reduceIte, run_bind, run_now, Database.caller]
  rcases run_exec_cases "storage: GetSessionByToken: "
    (.selectSession (extractToken r) env.clock.head) env.tick db with ⟨hfault, err, hrun⟩ | hrun
  · exact ⟨env.tick.next, fun h => h.tick.next, rfl, .inl ⟨hfault, by rw [hrun]; rfl⟩⟩
  rw [hrun]
  simp only [Stmt.exec, Except.mapError]
  rcases hsess : (db.sessions.lookup (extractToken r)).filter
    (fun s => s.expiresAt > env.clock.head) with _ | sess
  · refine ⟨env.tick.next, fun h => h.tick.next, rfl, .inr ?_⟩
    simp only [hsess]
    rfl
  simp only [hsess, run_bind, Option.bind_some]
  rcases run_exec_cases "storage: GetUserByID: " (.selectUserByID sess.userID) env.tick.next db with
    ⟨hfault, err, hrun'⟩ | hrun'
  · refine ⟨env.tick.next.next, fun h => h.tick.next.next, rfl, .inl ⟨fun h => ?_, by rw [hrun']; rfl⟩⟩
    exact hfault h.tick.next
  · refine ⟨env.tick.next.next, fun h => h.tick.next.next, rfl, .inr ?_⟩
    rw [hrun']
    rcases huser : db.users.lookup sess.userID with _ | user <;>
      simp [huser, Stmt.exec, Except.mapError, admission]

/-- The admin the token speaks for. -/
def Database.AdminCaller (db : Database) (token : String) (now : ℤ) (caller : User) : Prop :=
  db.caller token now = some caller ∧ caller.role = roleAdmin

instance (db : Database) (token : String) (now : ℤ) (caller : User) :
    Decidable (db.AdminCaller token now caller) := inferInstanceAs (Decidable (_ ∧ _))

/-- A route for admins ends at once, or goes on for the admin the token speaks for; on a working
    database it goes on where there is one. -/
theorem run_adminOnly (r : AuthHeaders) (next : User → Db ApiReply) (env : Surroundings)
    (db : Database) : ∃ env', (env.Works → env'.Works) ∧ env'.random = env.random ∧
      ((env.Works → ∀ caller, ¬db.AdminCaller (extractToken r) env.clock.head caller) ∧
          (∃ reply, (adminOnly r next).run serve (env, db) = (reply, env', db)) ∨
        ∃ caller, db.AdminCaller (extractToken r) env.clock.head caller ∧
          (adminOnly r next).run serve (env, db) = (next caller).run serve (env', db)) := by
  obtain ⟨env', hworks, hrandom, ⟨hfault, hrun⟩ | hrun⟩ := run_requireAuth r env db
  · refine ⟨env', hworks, hrandom, .inl ⟨fun h => absurd h hfault, jsonError "unauthorized" 401, ?_⟩⟩
    rw [adminOnly, authed, run_bind, hrun]
    rfl
  · refine ⟨env', hworks, hrandom, ?_⟩
    rw [adminOnly, authed, run_bind, hrun]
    rcases hcaller : db.caller (extractToken r) env.clock.head with _ | caller
    · refine .inl ⟨fun _ caller h => ?_, jsonError "unauthorized" 401, rfl⟩
      rw [Database.AdminCaller, hcaller] at h
      cases h.1
    · by_cases hadmin : caller.role = roleAdmin
      · exact .inr ⟨caller, ⟨hcaller, hadmin⟩, by simp [admission, requireAdmin, hadmin]⟩
      · refine .inl ⟨fun _ caller' h => ?_, jsonError "forbidden" 403, ?_⟩
        · rw [Database.AdminCaller, hcaller, Option.some.injEq] at h
          exact hadmin (h.1 ▸ h.2)
        · simp [admission, requireAdmin, hadmin]

end VaultsSyncer
