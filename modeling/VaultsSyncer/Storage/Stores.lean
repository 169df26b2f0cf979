import VaultsSyncer.Storage.Database

/-! The settings store and the user store (`storage/settings_store.go`, `storage/user_store.go`),
    function by function. -/

namespace VaultsSyncer

open GoStd Schemes Schemes.Prog

def roleAdmin : String := "admin"

def roleUser : String := "user"

namespace Db

def now : Db ℤ := perform DbCall.now

def randRead (n : ℕ) : Db (Except GoError Bytes) := perform (DbCall.randRead n)

/-- A statement whose error is wrapped. -/
def exec (pre : String) (s : Stmt) : Db (Except GoError s.Val) := do
  return (← perform (DbCall.sql s)).mapError (GoError.wrap pre)

def rowsAffected (pre : String) (n : ℕ) : Db (Except GoError ℕ) := do
  return (← perform (DbCall.rowsAffected n)).mapError (GoError.wrap pre)

end Db

/-! ### Settings -/

namespace SettingsStore

/-- Inserts or updates a setting. -/
def setSetting (key value : String) : Db (Except GoError Unit) := do
  let t ← Db.now
  match ← Db.exec "storage: SetSetting update: " (.updateSetting key value t) with
  | .error err => return .error err
  | .ok res =>
    match ← Db.rowsAffected "storage: SetSetting rowsAffected: " res with
    | .error err => return .error err
    | .ok n =>
      if n = 0 then Db.exec "storage: SetSetting insert: " (.insertSetting key value t)
      else return .ok ()

/-- Retrieves a setting value; a missing key is not an error. -/
def getSetting (key : String) : Db (Except GoError (Option String)) :=
  Db.exec "storage: GetSetting: " (.selectSetting key)

/-- Has the application been set up? -/
def isSetupComplete : Db (Except GoError Bool) := do
  return (← getSetting "setup_complete").map Option.isSome

/-- Records that first-run setup has been completed. -/
def markSetupComplete : Db (Except GoError Unit) := setSetting "setup_complete" "true"

end SettingsStore

/-! ### Users and sessions -/

namespace UserStore

/-- Looks up a user by their username. -/
def getUserByUsername (username : String) : Db (Except GoError (Option User)) :=
  Db.exec "storage: GetUserByUsername: " (.selectUserByUsername username)

/-- Looks up a user by ID. -/
def getUserByID (id : ℤ) : Db (Except GoError (Option User)) :=
  Db.exec "storage: GetUserByID: " (.selectUserByID id)

/-- Inserts a new user. -/
def createUser (username passwordHash role : String) : Db (Except GoError (Option User)) := do
  let t ← Db.now
  match ← Db.exec "storage: CreateUser: " (.insertUser username passwordHash role t) with
  | .error err => return .error err
  | .ok () => getUserByUsername username

/-- Returns all users (without password hashes). -/
def listUsers : Db (Except GoError (List User)) := do
  return (← Db.exec "storage: ListUsers: " .selectUsers).map fun us =>
    us.map fun u => { u with passwordHash := "" }

/-- Updates a user's password hash. -/
def updateUserPassword (userID : ℤ) (passwordHash : String) : Db (Except GoError Unit) := do
  let t ← Db.now
  Db.exec "storage: UpdateUserPassword: " (.updateUserPassword userID passwordHash t)

/-- Updates a user's role. -/
def updateUserRole (userID : ℤ) (role : String) : Db (Except GoError Unit) := do
  let t ← Db.now
  Db.exec "storage: UpdateUserRole: " (.updateUserRole userID role t)

/-- Removes a user and their sessions. -/
def deleteUser (userID : ℤ) : Db (Except GoError Unit) := do
  match ← Db.exec "storage: DeleteUser sessions: " (.deleteSessionsOf userID) with
  | .error err => return .error err
  | .ok () => Db.exec "storage: DeleteUser: " (.deleteUser userID)

/-- Persists a new session token for the given user. -/
def createSession (userID : ℤ) (token : String) (expiresAt : ℤ) : Db (Except GoError Unit) := do
  let t ← Db.now
  Db.exec "storage: CreateSession: " (.insertSession userID token expiresAt t)

/-- Retrieves a non-expired session by token. -/
def getSessionByToken (token : String) : Db (Except GoError (Option Session)) := do
  let t ← Db.now
  Db.exec "storage: GetSessionByToken: " (.selectSession token t)

/-- Removes a session by token. -/
def deleteSession (token : String) : Db (Except GoError Unit) :=
  Db.exec "storage: DeleteSession: " (.deleteSession token)

end UserStore

end VaultsSyncer
