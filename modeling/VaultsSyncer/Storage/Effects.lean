import VaultsSyncer.Storage.Stores

/-! What the calls of a store program do: which statements leave which table alone, how a call goes on
    a database that works, and what can happen on one that may fail. -/

namespace VaultsSyncer

open GoStd Schemes Schemes.Prog

/-! ### Which statements touch what -/

/-- A statement that leaves the table of users alone. -/
def Stmt.KeepsUsers : Stmt → Bool
  | .insertUser _ _ _ _ | .updateUserPassword _ _ _ | .updateUserRole _ _ _ | .deleteUser _ => false
  | _ => true

/-- A statement that only reads. -/
def Stmt.Reads : Stmt → Bool
  | .selectSetting _ | .selectUserByUsername _ | .selectUserByID _ | .selectUsers
  | .selectSession _ _ | .selectConfig _ _ | .selectConfigs _ => true
  | _ => false

/-- A statement on the stored configuration. -/
def Stmt.OnConfig : Stmt → Bool
  | .selectConfig _ _ | .selectConfigs _ | .updateConfig _ _ _ _ | .insertConfig _ _ _ _
  | .deleteConfig _ _ => true
  | _ => false

/-- A call that makes no statement, or one that satisfies `p`. -/
def DbCall.Only (p : Stmt → Prop) : DbCall → Prop
  | .sql s => p s
  | _ => True

theorem Stmt.exec_keepsUsers {s : Stmt} (h : s.KeepsUsers = true) (db : Database) :
    (s.exec db).2.users = db.users := by
  cases s <;> simp only [KeepsUsers, Bool.false_eq_true] at h <;> simp only [exec] <;>
    first
    | rfl
    | (split_ifs <;> rfl)

theorem Stmt.exec_reads {s : Stmt} (h : s.Reads = true) (db : Database) : (s.exec db).2 = db := by
  cases s <;> simp only [Reads, Bool.false_eq_true] at h <;> rfl

theorem Stmt.exec_onConfig {s : Stmt} (h : s.OnConfig = true) (db : Database) :
    (s.exec db).2.appSettings = db.appSettings := by
  cases s <;> simp only [OnConfig, Bool.false_eq_true] at h <;> simp only [exec] <;>
    first
    | rfl
    | (split_ifs <;> rfl)

/-- What every statement keeps, every call keeps. -/
theorem serve_preserves {p : Stmt → Prop} {I : Database → Prop} {op : DbCall} (hop : op.Only p)
    (hI : ∀ s db, p s → I db → I (s.exec db).2) (env : Surroundings) {db : Database} (h : I db) :
    I (serve op (env, db)).2.2 := by
  cases op with
  | sql s =>
    simp only [serve]
    split
    · exact h
    · exact hI s db hop h
  | rowsAffected n => simp only [serve]; split <;> exact h
  | now => exact h
  | randRead n => exact h

/-- A part of the database that no statement of a program touches. -/
theorem run_keeps {α γ : Type} {p : Stmt → Prop} (f : Database → γ)
    (hf : ∀ s db, p s → f (s.exec db).2 = f db) {q : Db α} (hq : q.AllCalls (DbCall.Only p))
    (env : Surroundings) (db : Database) : f (q.run serve (env, db)).2.2 = f db := by
  refine hq.run_preserves serve (I := fun x => f x.2 = f db) ?_ rfl
  rintro op ⟨env, d⟩ hop hd
  refine serve_preserves (I := fun d => f d = f db) hop ?_ env hd
  intro s d hs hd
  rw [hf s d hs, hd]

theorem run_keepsUsers {α : Type} {q : Db α}
    (hq : q.AllCalls (DbCall.Only fun s => s.KeepsUsers = true)) (env : Surroundings)
    (db : Database) : (q.run serve (env, db)).2.2.users = db.users :=
  run_keeps Database.users (fun _ d h => Stmt.exec_keepsUsers h d) hq env db

/-! ### All calls of a program -/

section AllCalls

variable {P : DbCall → Prop}

theorem allCalls_exec {pre : String} {s : Stmt} (h : P (.sql s)) : (Db.exec pre s).AllCalls P :=
  ⟨h, fun _ => trivial⟩

theorem allCalls_rowsAffected {pre : String} {n : ℕ} (h : P (.rowsAffected n)) :
    (Db.rowsAffected pre n).AllCalls P := ⟨h, fun _ => trivial⟩

theorem allCalls_now (h : P .now) : Db.now.AllCalls P := ⟨h, fun _ => trivial⟩

theorem allCalls_randRead {n : ℕ} (h : P (.randRead n)) : (Db.randRead n).AllCalls P :=
  ⟨h, fun _ => trivial⟩

end AllCalls

section StoreCalls

variable {p : Stmt → Prop}

theorem allCalls_getSetting {key : String} (h : p (.selectSetting key)) :
    (SettingsStore.getSetting key).AllCalls (DbCall.Only p) := allCalls_exec h

theorem allCalls_setSetting {key value : String} (hupdate : ∀ t, p (.updateSetting key value t))
    (hinsert : ∀ t, p (.insertSetting key value t)) :
    (SettingsStore.setSetting key value).AllCalls (DbCall.Only p) := by
  refine (allCalls_now trivial).bind fun t => (allCalls_exec (hupdate t)).bind ?_
  rintro (err | res)
  · trivial
  · refine (allCalls_rowsAffected trivial).bind ?_
    rintro (err | n)
    · trivial
    · dsimp only
      split_ifs
      · exact allCalls_exec (hinsert t)
      · trivial

theorem allCalls_createUser {username passwordHash role : String}
    (hinsert : ∀ t, p (.insertUser username passwordHash role t))
    (hselect : p (.selectUserByUsername username)) :
    (UserStore.createUser username passwordHash role).AllCalls (DbCall.Only p) := by
  refine (allCalls_now trivial).bind fun t => (allCalls_exec (hinsert t)).bind ?_
  rintro (err | ⟨⟩)
  · trivial
  · exact allCalls_exec hselect

theorem allCalls_deleteUser {userID : ℤ} (hsessions : p (.deleteSessionsOf userID))
    (huser : p (.deleteUser userID)) : (UserStore.deleteUser userID).AllCalls (DbCall.Only p) := by
  refine (allCalls_exec hsessions).bind ?_
  rintro (err | ⟨⟩)
  · trivial
  · exact allCalls_exec huser

theorem allCalls_createSession {userID : ℤ} {token : String} {expiresAt : ℤ}
    (hinsert : ∀ t, p (.insertSession userID token expiresAt t)) :
    (UserStore.createSession userID token expiresAt).AllCalls (DbCall.Only p) :=
  (allCalls_now trivial).bind fun t => allCalls_exec (hinsert t)

end StoreCalls

/-! ### Calls by the first of the faults, and on a working database -/

theorem Surroundings.works_default : ({} : Surroundings).Works := fun _ => rfl

/-- The surroundings after a call to the database. -/
def Surroundings.next (env : Surroundings) : Surroundings := { env with faults := env.faults.tail }

theorem Surroundings.Works.next {env : Surroundings} (h : env.Works) : env.next.Works :=
  fun n => h (n + 1)

/-- The surroundings after a reading of the clock. -/
def Surroundings.tick (env : Surroundings) : Surroundings := { env with clock := env.clock.tail }

theorem Surroundings.Works.tick {env : Surroundings} (h : env.Works) : env.tick.Works := h

/-- The surroundings after a draw. -/
def Surroundings.drawn (env : Surroundings) : Surroundings := { env with random := env.random.tail }

theorem Surroundings.Works.drawn {env : Surroundings} (h : env.Works) : env.drawn.Works := h

@[simp] theorem Surroundings.next_random (env : Surroundings) : env.next.random = env.random := rfl

theorem run_exec_of_head {env : Surroundings} (h : env.faults.head = none) (pre : String) (s : Stmt)
    (db : Database) : (Db.exec pre s).run serve (env, db) =
      ((s.exec db).1.mapError (GoError.wrap pre), env.next, (s.exec db).2) := by
  simp only [Db.exec, perform_bind, pure_eq, run_call, run_ret, serve, h]
  rfl

theorem run_exec_of_fault {env : Surroundings} {err : GoError} (h : env.faults.head = some err)
    (pre : String) (s : Stmt) (db : Database) :
    (Db.exec pre s).run serve (env, db) = (.error (.wrap pre err), env.next, db) := by
  simp only [Db.exec, perform_bind, pure_eq, run_call, run_ret, serve, h]
  rfl

theorem run_rowsAffected_of_head {env : Surroundings} (h : env.faults.head = none) (pre : String)
    (n : ℕ) (db : Database) :
    (Db.rowsAffected pre n).run serve (env, db) = (.ok n, env.next, db) := by
  simp only [Db.rowsAffected, perform_bind, pure_eq, run_call, run_ret, serve, h]
  rfl

theorem run_rowsAffected_of_fault {env : Surroundings} {err : GoError}
    (h : env.faults.head = some err) (pre : String) (n : ℕ) (db : Database) :
    (Db.rowsAffected pre n).run serve (env, db) = (.error (.wrap pre err), env.next, db) := by
  simp only [Db.rowsAffected, perform_bind, pure_eq, run_call, run_ret, serve, h]
  rfl

theorem run_exec {env : Surroundings} (h : env.Works) (pre : String) (s : Stmt) (db : Database) :
    (Db.exec pre s).run serve (env, db) =
      ((s.exec db).1.mapError (GoError.wrap pre), env.next, (s.exec db).2) :=
  run_exec_of_head (h 0) pre s db

theorem run_rowsAffected {env : Surroundings} (h : env.Works) (pre : String) (n : ℕ) (db : Database) :
    (Db.rowsAffected pre n).run serve (env, db) = (.ok n, env.next, db) :=
  run_rowsAffected_of_head (h 0) pre n db

@[simp] theorem run_now (env : Surroundings) (db : Database) :
    Db.now.run serve (env, db) = (env.clock.head, env.tick, db) := rfl

@[simp] theorem run_randRead (n : ℕ) (env : Surroundings) (db : Database) :
    (Db.randRead n).run serve (env, db) = (env.random.head.map (takeBytes n), env.drawn, db) := rfl

theorem run_createUser {env : Surroundings} (h : env.Works) {username : String} (hash role : String)
    {db : Database} (hfree : db.users.byUsername username = none) :
    (UserStore.createUser username hash role).run serve (env, db) =
      (.ok ((db.insertUser username hash role env.clock.head hfree).users.byUsername username),
        env.tick.next.next, db.insertUser username hash role env.clock.head hfree) := by
  rw [UserStore.createUser, run_bind, run_now]
  dsimp only
  rw [run_bind, run_exec h.tick]
  simp only [Stmt.exec, hfree, ↓reduceDIte, Except.mapError]
  exact run_exec h.tick.next _ _ _

theorem run_getSetting {env : Surroundings} (h : env.Works) (key : String) (db : Database) :
    (SettingsStore.getSetting key).run serve (env, db) =
      (.ok ((db.appSettings.lookup key).map Setting.value), env.next, db) := run_exec h _ _ db

theorem run_getUserByUsername {env : Surroundings} (h : env.Works) (username : String)
    (db : Database) : (UserStore.getUserByUsername username).run serve (env, db) =
      (.ok (db.users.byUsername username), env.next, db) := run_exec h _ _ db

/-- A statement fails and changes nothing, or does what it does on a working database. -/
theorem run_exec_cases (pre : String) (s : Stmt) (env : Surroundings) (db : Database) :
    (¬env.Works ∧ ∃ err, (Db.exec pre s).run serve (env, db) = (.error err, env.next, db)) ∨
    (Db.exec pre s).run serve (env, db) =
      ((s.exec db).1.mapError (GoError.wrap pre), env.next, (s.exec db).2) := by
  rcases hhead : env.faults.head with _ | err
  · exact .inr (run_exec_of_head hhead pre s db)
  · refine .inl ⟨fun h => ?_, _, run_exec_of_fault hhead pre s db⟩
    have hnone : env.faults.head = none := h 0
    rw [hnone] at hhead
    cases hhead

theorem run_rowsAffected_cases (pre : String) (n : ℕ) (env : Surroundings) (db : Database) :
    (∃ err, (Db.rowsAffected pre n).run serve (env, db) = (.error err, env.next, db)) ∨
    (Db.rowsAffected pre n).run serve (env, db) = (.ok n, env.next, db) := by
  rcases hhead : env.faults.head with _ | err
  · exact .inr (run_rowsAffected_of_head hhead pre n db)
  · exact .inl ⟨_, run_rowsAffected_of_fault hhead pre n db⟩

theorem run_exec_or {pre : String} {s : Stmt} {v : s.Val} (env : Surroundings) {db : Database}
    (hv : (s.exec db).1 = .ok v) :
    (∃ err env₁, (Db.exec pre s).run serve (env, db) = (.error err, env₁, db)) ∨
      ∃ env₁, (Db.exec pre s).run serve (env, db) = (.ok v, env₁, (s.exec db).2) := by
  rcases run_exec_cases pre s env db with ⟨-, err, hrun⟩ | hrun
  · exact .inl ⟨_, _, hrun⟩
  · rw [hrun, hv]
    exact .inr ⟨_, rfl⟩

/-- A statement that has gone through has done what it does on a working database. -/
theorem exec_ok {pre : String} {s : Stmt} {v : s.Val} {env env' : Surroundings} {db db' : Database}
    (h : (Db.exec pre s).run serve (env, db) = (.ok v, env', db')) : db' = (s.exec db).2 := by
  rcases run_exec_cases pre s env db with ⟨-, err, hrun⟩ | hrun
  · rw [hrun] at h
    cases h
  · rw [hrun, Prod.mk.injEq, Prod.mk.injEq] at h
    exact h.2.2.symm

/-- What an upsert that goes through has done: its update has met a row, or an insert has followed. -/
theorem upsert_ok {q : Db (Except GoError ℕ)} {pre : String} {ins : Db (Except GoError Unit)}
    {f g : Except GoError ℕ → Db (Except GoError Unit)} {n : ℕ} {env env' : Surroundings}
    {db db₁ db' : Database} (hf : ∀ err, f (.error err) = .ret (.error err))
    (hf' : ∀ n, f (.ok n) = Db.rowsAffected pre n >>= g) (hg : ∀ err, g (.error err) = .ret (.error err))
    (hg' : ∀ n, g (.ok n) = if n = 0 then ins else .ret (.ok ()))
    (hq : (∃ err env₁, q.run serve (env, db) = (.error err, env₁, db)) ∨
      ∃ env₁, q.run serve (env, db) = (.ok n, env₁, db₁))
    (h : (q >>= f).run serve (env, db) = (.ok (), env', db')) :
    n ≠ 0 ∧ db' = db₁ ∨ n = 0 ∧ ∃ env₁, ins.run serve (env₁, db₁) = (.ok (), env', db') := by
  rw [run_bind] at h
  rcases hq with ⟨err, env₁, hrun⟩ | ⟨env₁, hrun⟩
  · rw [hrun, hf] at h
    cases h
  rw [hrun, hf', run_bind] at h
  rcases run_rowsAffected_cases pre n env₁ db₁ with ⟨err, hrun'⟩ | hrun'
  · rw [hrun', hg] at h
    cases h
  rw [hrun', hg'] at h
  split_ifs at h with hzero
  · exact .inr ⟨hzero, _, h⟩
  · rw [run_ret, Prod.mk.injEq, Prod.mk.injEq] at h
    exact .inl ⟨hzero, h.2.2.symm⟩

/-- A setting that has been written is there. -/
theorem run_setSetting_ok {key value : String} {env env' : Surroundings} {db db' : Database}
    (h : (SettingsStore.setSetting key value).run serve (env, db) = (.ok (), env', db')) :
    db'.appSettings.lookup key ≠ none := by
  rw [SettingsStore.setSetting, run_bind, run_now] at h
  have hlookup : ((Stmt.updateSetting key value env.clock.head).exec db).2.appSettings.lookup key =
      none ↔ db.appSettings.lookup key = none := by
    simp only [Stmt.exec, Table.Keyed.lookup_modify, ↓reduceIte, Option.map_eq_none_iff]
  rcases upsert_ok (fun _ => rfl) (fun _ => rfl) (fun _ => rfl) (fun _ => rfl)
    (run_exec_or env.tick rfl) h with ⟨hrow, rfl⟩ | ⟨hzero, env₁, hinsert⟩
  · intro hnone
    exact hrow (Table.Keyed.affected_eq_zero.mpr (hlookup.mp hnone))
  · have hnone := hlookup.mpr (Table.Keyed.affected_eq_zero.mp hzero)
    rw [exec_ok hinsert]
    generalize ((Stmt.updateSetting key value env.clock.head).exec db).2 = db₁ at hnone
    simp only [Stmt.exec, hnone, ↓reduceDIte, Table.Keyed.lookup_insert, ↓reduceIte]
    exact Option.some_ne_none _

end VaultsSyncer
