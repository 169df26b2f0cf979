import Mathlib.Data.List.Sort
import Mathlib.Data.Stream.Init
import VaultsSyncer.GoStd.Text
import VaultsSyncer.Schemes.Prog
import VaultsSyncer.Schemes.Table

/-! The database behind the API (`storage/store.go`): users, sessions, settings and the stored
    configuration, with what the SQLite schema enforces carried by the types, and the single SQL
    statements on them. A `Db` program makes its statements, readings of the clock and draws of random
    bytes as calls, so it can be interrupted between any two of them; the surroundings say which
    statement fails, and one that fails leaves the database as it was. -/

namespace VaultsSyncer

open GoStd Schemes

/-! ### Tables -/

/-- An application user. -/
structure User where
  id : ℤ
  username : String
  passwordHash : String
  role : String
  createdAt : ℤ
  updatedAt : ℤ
  deriving DecidableEq

/-- An active user session. -/
structure Session where
  id : ℤ
  userID : ℤ
  token : String
  expiresAt : ℤ
  createdAt : ℤ
  deriving DecidableEq

/-- A row of `app_settings`. -/
structure Setting where
  key : String
  value : String
  createdAt : ℤ
  updatedAt : ℤ

/-- A row of `config_vaults` or `config_syncs`. -/
structure ConfigRow where
  id : String
  configJSON : String
  createdAt : ℤ
  updatedAt : ℤ

/-- The two tables of configuration rows. -/
inductive ConfigTable where | vaults | syncs
  deriving DecidableEq

/-- Ids are handed out once, and usernames are unique. -/
structure UserTable extends Table.Keyed User.id where
  nextID : ℤ
  ids_lt : ∀ u ∈ rows, u.id < nextID
  usernames_nodup : (rows.map User.username).Nodup

structure SessionTable extends Table.Keyed Session.token where
  nextID : ℤ

namespace UserTable

def empty : UserTable where
  toKeyed := .empty
  nextID := 1
  ids_lt := by simp [Table.Keyed.empty]
  usernames_nodup := by simp [Table.Keyed.empty]

def byUsername (t : UserTable) (username : String) : Option User :=
  Table.lookup User.username username t.rows

/-- An update that keeps the id and the username. -/
def set (t : UserTable) (id : ℤ) (f : User → User) (hid : ∀ u, (f u).id = u.id)
    (hname : ∀ u, (f u).username = u.username) : UserTable where
  toKeyed := t.toKeyed.modify id f hid
  nextID := t.nextID
  ids_lt := by
    intro u hu
    obtain ⟨v, hv, rfl⟩ := List.mem_map.mp hu
    have := t.ids_lt v hv
    split_ifs
    · rwa [hid]
    · exact this
  usernames_nodup := by
    have hnames : (Table.modify User.id id f t.rows).map User.username = t.rows.map User.username := by
      rw [Table.modify, List.map_map]
      refine List.map_congr_left fun u _ => ?_
      by_cases hu : u.id = id <;> simp [hu, hname]
    rw [Table.Keyed.modify, hnames]
    exact t.usernames_nodup

/-- A new user, where the username is free. -/
def insert (t : UserTable) (username passwordHash role : String) (now : ℤ)
    (h : t.byUsername username = none) : UserTable where
  toKeyed := t.toKeyed.insert
    { id := t.nextID, username := username, passwordHash := passwordHash, role := role
      createdAt := now, updatedAt := now } (by
    rcases hrow : t.lookup t.nextID with _ | u
    · rfl
    · obtain ⟨hu, hid⟩ := Table.Keyed.lookup_eq_some_iff.mp hrow
      exact absurd (t.ids_lt u hu) (by omega))
  nextID := t.nextID + 1
  ids_lt := by
    intro u hu
    rcases List.mem_append.mp hu with hu | hu
    · have := t.ids_lt u hu
      omega
    · rw [List.mem_singleton] at hu
      subst hu
      exact Int.lt_succ _
  usernames_nodup := by
    rw [Table.Keyed.insert, List.map_append, List.map_singleton, List.nodup_append]
    refine ⟨t.usernames_nodup, List.nodup_singleton _, ?_⟩
    rintro n hn n' hn' rfl
    rw [List.mem_singleton] at hn'
    have hname : n = username := hn'
    subst hname
    exact Table.lookup_eq_none.mp h hn

@[simp] theorem length_insert (t : UserTable) (username passwordHash role : String) (now : ℤ)
    (h : t.byUsername username = none) :
    (t.insert username passwordHash role now h).rows.length = t.rows.length + 1 := by
  simp [insert, Table.Keyed.insert]

def delete (t : UserTable) (id : ℤ) : UserTable where
  toKeyed := t.toKeyed.remove id
  nextID := t.nextID
  ids_lt := fun u hu => t.ids_lt u (List.mem_of_mem_filter hu)
  usernames_nodup := t.usernames_nodup.sublist (List.filter_sublist.map _)

end UserTable

structure Database where
  users : UserTable
  sessions : SessionTable
  /-- `REFERENCES users(id) ON DELETE CASCADE` -/
  sessions_users : ∀ s ∈ sessions.rows, users.lookup s.userID ≠ none
  appSettings : Table.Keyed Setting.key
  config : ConfigTable → Table.Keyed ConfigRow.id

namespace Database

/-- A fresh store. -/
def empty : Database where
  users := .empty
  sessions := { toKeyed := .empty, nextID := 1 }
  sessions_users := by simp [Table.Keyed.empty]
  appSettings := .empty
  config := fun _ => .empty

/-- `UPDATE users SET … WHERE id = id` of columns outside the keys. -/
def setUser (db : Database) (id : ℤ) (f : User → User) (hid : ∀ u, (f u).id = u.id)
    (hname : ∀ u, (f u).username = u.username) : Database :=
  { db with
    users := db.users.set id f hid hname
    sessions_users := by
      intro s hs
      have hkept := db.sessions_users s hs
      rw [UserTable.set, Table.Keyed.lookup_modify]
      split_ifs with h
      · subst h
        simpa using hkept
      · exact hkept }

/-- `INSERT INTO users`, where the username is free. -/
def insertUser (db : Database) (username passwordHash role : String) (now : ℤ)
    (h : db.users.byUsername username = none) : Database :=
  { db with
    users := db.users.insert username passwordHash role now h
    sessions_users := by
      intro s hs
      rw [UserTable.insert, Table.Keyed.lookup_insert]
      split_ifs
      · simp
      · exact db.sessions_users s hs }

/-- `DELETE FROM sessions WHERE …`. -/
def filterSessions (db : Database) (p : Session → Bool) : Database :=
  { db with
    sessions := { db.sessions with
      rows := db.sessions.rows.filter p
      keys_nodup := db.sessions.keys_nodup.sublist (List.filter_sublist.map _) }
    sessions_users := fun s hs => db.sessions_users s (List.mem_of_mem_filter hs) }

/-- `DELETE FROM users WHERE id = id`; the sessions of the user go with it. -/
def deleteUser (db : Database) (id : ℤ) : Database :=
  { db.filterSessions (fun s => s.userID ≠ id) with
    users := db.users.delete id
    sessions_users := by
      intro s hs
      obtain ⟨hs, hne⟩ := List.mem_filter.mp hs
      rw [UserTable.delete, Table.Keyed.lookup_remove, if_neg (by simpa using hne)]
      exact db.sessions_users s hs }

/-- `INSERT INTO sessions`, where the token is free and the user is there. -/
def insertSession (db : Database) (userID : ℤ) (token : String) (expiresAt createdAt : ℤ)
    (htoken : db.sessions.lookup token = none) (huser : db.users.lookup userID ≠ none) : Database :=
  { db with
    sessions :=
      { toKeyed := db.sessions.toKeyed.insert
          { id := db.sessions.nextID, userID := userID, token := token, expiresAt := expiresAt
            createdAt := createdAt } htoken
        nextID := db.sessions.nextID + 1 }
    sessions_users := by
      intro s hs
      rcases List.mem_append.mp hs with hs | hs
      · exact db.sessions_users s hs
      · rw [List.mem_singleton] at hs
        subst hs
        exact huser }

/-- The rows of a configuration table replaced. -/
def setConfig (db : Database) (t : ConfigTable) (rows : Table.Keyed ConfigRow.id) : Database :=
  { db with config := Function.update db.config t rows }

end Database

/-! ### Statements -/

/-- The SQL statements of the stores. -/
inductive Stmt where
  | selectSetting (key : String)
  | updateSetting (key value : String) (now : ℤ)
  | insertSetting (key value : String) (now : ℤ)
  | selectUserByUsername (username : String)
  | selectUserByID (id : ℤ)
  | selectUsers
  | insertUser (username passwordHash role : String) (now : ℤ)
  | updateUserPassword (id : ℤ) (passwordHash : String) (now : ℤ)
  | updateUserRole (id : ℤ) (role : String) (now : ℤ)
  | deleteUser (id : ℤ)
  | selectSession (token : String) (now : ℤ)
  | insertSession (userID : ℤ) (token : String) (expiresAt now : ℤ)
  | deleteSession (token : String)
  | deleteSessionsOf (userID : ℤ)
  | selectConfig (t : ConfigTable) (id : String)
  | selectConfigs (t : ConfigTable)
  | updateConfig (t : ConfigTable) (id configJSON : String) (now : ℤ)
  | insertConfig (t : ConfigTable) (id configJSON : String) (now : ℤ)
  | deleteConfig (t : ConfigTable) (id : String)

/-- What a statement returns: the row or rows scanned, or the `sql.Result`, which is the number of
    rows an `UPDATE` has changed where a store asks for it. -/
abbrev Stmt.Val : Stmt → Type
  | .selectSetting _ => Option String
  | .updateSetting _ _ _ | .updateConfig _ _ _ _ => ℕ
  | .selectUserByUsername _ | .selectUserByID _ => Option User
  | .selectUsers => List User
  | .selectSession _ _ => Option Session
  | .selectConfig _ _ => Option String
  | .selectConfigs _ => List String
  | _ => Unit

/-- Rows by rising `created_at`. -/
def byCreation {α : Type} (createdAt : α → ℤ) (rows : List α) : List α :=
  rows.insertionSort fun a b => createdAt a ≤ createdAt b

/-- A statement on a working database. -/
def Stmt.exec : (s : Stmt) → Database → Except GoError s.Val × Database
  | .selectSetting key, db => (.ok ((db.appSettings.lookup key).map Setting.value), db)
  | .updateSetting key value now, db =>
    (.ok (db.appSettings.affected key), { db with
      appSettings := db.appSettings.modify key
        (fun r => { r with value := value, updatedAt := now }) fun _ => rfl })
  | .insertSetting key value now, db =>
    if h : db.appSettings.lookup key = none then
      (.ok (), { db with
        appSettings := db.appSettings.insert
          { key := key, value := value, createdAt := now, updatedAt := now } h })
    else (.error (.new "UNIQUE constraint failed: app_settings.key"), db)
  | .selectUserByUsername username, db => (.ok (db.users.byUsername username), db)
  | .selectUserByID id, db => (.ok (db.users.lookup id), db)
  | .selectUsers, db => (.ok (byCreation User.createdAt db.users.rows), db)
  | .insertUser username passwordHash role now, db =>
    if h : db.users.byUsername username = none then
      (.ok (), db.insertUser username passwordHash role now h)
    else (.error (.new "UNIQUE constraint failed: users.username"), db)
  | .updateUserPassword id passwordHash now, db =>
    (.ok (), db.setUser id (fun u => { u with passwordHash := passwordHash, updatedAt := now })
      (fun _ => rfl) fun _ => rfl)
  | .updateUserRole id role now, db =>
    (.ok (), db.setUser id (fun u => { u with role := role, updatedAt := now }) (fun _ => rfl)
      fun _ => rfl)
  | .deleteUser id, db => (.ok (), db.deleteUser id)
  | .selectSession token now, db =>
    (.ok ((db.sessions.lookup token).filter fun s => s.expiresAt > now), db)
  | .insertSession userID token expiresAt now, db =>
    if h : db.sessions.lookup token = none ∧ db.users.lookup userID ≠ none then
      (.ok (), db.insertSession userID token expiresAt now h.1 h.2)
    else if db.sessions.lookup token = none then (.error (.new "FOREIGN KEY constraint failed"), db)
    else (.error (.new "UNIQUE constraint failed: sessions.token"), db)
  | .deleteSession token, db => (.ok (), db.filterSessions fun s => s.token ≠ token)
  | .deleteSessionsOf userID, db => (.ok (), db.filterSessions fun s => s.userID ≠ userID)
  | .selectConfig t id, db => (.ok (((db.config t).lookup id).map ConfigRow.configJSON), db)
  | .selectConfigs t, db =>
    (.ok ((byCreation ConfigRow.createdAt (db.config t).rows).map ConfigRow.configJSON), db)
  | .updateConfig t id configJSON now, db =>
    (.ok ((db.config t).affected id), db.setConfig t ((db.config t).modify id
      (fun r => { r with configJSON := configJSON, updatedAt := now }) fun _ => rfl))
  | .insertConfig t id configJSON now, db =>
    if h : (db.config t).lookup id = none then
      (.ok (), db.setConfig t ((db.config t).insert
        { id := id, configJSON := configJSON, createdAt := now, updatedAt := now } h))
    else (.error (.new "UNIQUE constraint failed"), db)
  | .deleteConfig t id, db => (.ok (), db.setConfig t ((db.config t).remove id))

/-! ### Programs -/

/-- The calls of a store program. -/
inductive DbCall where
  | sql (s : Stmt)
  | rowsAffected (n : ℕ)
  | now
  | randRead (n : ℕ)

abbrev DbCall.Ans : DbCall → Type
  | .sql s => Except GoError s.Val
  | .rowsAffected _ => Except GoError ℕ
  | .now => ℤ
  | .randRead _ => Except GoError Bytes

/-- A program on the database. -/
abbrev Db (α : Type) := Prog DbCall DbCall.Ans α

/-- What the surroundings have in store: which call to the database fails, what the clock shows in
    Unix seconds, and what the random generator returns. -/
structure Surroundings where
  faults : Stream' (Option GoError) := Stream'.const none
  clock : Stream' ℤ := Stream'.const 0
  random : Stream' (Except GoError Bytes) := Stream'.const (.ok [])

/-- No call to the database fails. -/
def Surroundings.Works (env : Surroundings) : Prop := ∀ n, env.faults.get n = none

/-- The first `n` bytes of a draw. -/
def takeBytes (n : ℕ) (b : Bytes) : Bytes := (List.range n).map fun i => b.getD i 0

/-- How each call is answered. -/
def serve : Schemes.Handler DbCall DbCall.Ans (Surroundings × Database)
  | .sql s, (env, db) =>
    match env.faults.head with
    | some err => (.error err, { env with faults := env.faults.tail }, db)
    | none => ((s.exec db).1, { env with faults := env.faults.tail }, (s.exec db).2)
  | .rowsAffected n, (env, db) =>
    match env.faults.head with
    | some err => (.error err, { env with faults := env.faults.tail }, db)
    | none => (.ok n, { env with faults := env.faults.tail }, db)
  | .now, (env, db) => (env.clock.head, { env with clock := env.clock.tail }, db)
  | .randRead n, (env, db) =>
    (env.random.head.map (takeBytes n), { env with random := env.random.tail }, db)

end VaultsSyncer
