import VaultsSyncer.Storage.Stores

/-! Authentication and session management (`auth/service.go`). bcrypt is a parameter: it makes a hash
    of a salt and a password, and compares a hash with a password. -/

namespace VaultsSyncer

open GoStd Schemes Schemes.Prog

structure Bcrypt where
  hash : Bytes → String → String
  compareHashAndPassword : String → String → Bool

/-- Passwords kept as they are, for examples. -/
def plainBcrypt : Bcrypt := ⟨fun _ password => password, fun hash password => hash = password⟩

def errInvalidCredentials : GoError := .new "auth: invalid username or password"

def errUserExists : GoError := .new "auth: username already exists"

def errLastAdmin : GoError := .new "auth: cannot remove the last admin account"

/-- What the HTTP server recovers from when a user that was just created is gone. -/
def nilDereference : GoError := .new "runtime error: invalid memory address or nil pointer dereference"

/-- `errors.Is`, where the target is a plain error. -/
def errorIs (err target : GoError) : Bool :=
  err = target || match err with
    | .new _ => false
    | .wrap _ inner => errorIs inner target

/-- 24 hours, in seconds. -/
def sessionTTL : ℤ := 24 * 60 * 60

/-- `bcrypt.GenerateFromPassword`: it takes no more than 72 bytes, and draws a salt. -/
def generateFromPassword (bc : Bcrypt) (password : String) : Db (Except GoError String) := do
  if byteLength password > 72 then
    return .error (.new "bcrypt: password length exceeds 72 bytes")
  else
    return (← Db.randRead 16).map fun salt => bc.hash salt password

/-- A cryptographically random hex token. -/
def generateToken : Db (Except GoError String) := do
  match ← Db.randRead 32 with
  | .error err => return .error (.wrap "auth: generateToken: " err)
  | .ok b => return .ok (hexString b)

namespace Service

/-- Creates the initial admin account. -/
def setupAdmin (bc : Bcrypt) (username password : String) : Db (Except GoError Unit) := do
  match ← UserStore.getUserByUsername username with
  | .error err => return .error (.wrap "auth: SetupAdmin lookup: " err)
  | .ok (some _) => return .error errUserExists
  | .ok none =>
    match ← generateFromPassword bc password with
    | .error err => return .error (.wrap "auth: SetupAdmin hash: " err)
    | .ok hash =>
      match ← UserStore.createUser username hash roleAdmin with
      | .error err => return .error (.wrap "auth: SetupAdmin create: " err)
      | .ok _ => return .ok ()

/-- Verifies credentials and returns a new session token on success. -/
def login (bc : Bcrypt) (username password : String) : Db (Except GoError String) := do
  match ← UserStore.getUserByUsername username with
  | .error err => return .error (.wrap "auth: Login: " err)
  | .ok none => return .error errInvalidCredentials
  | .ok (some user) =>
    if bc.compareHashAndPassword user.passwordHash password = false then
      return .error errInvalidCredentials
    else
      match ← generateToken with
      | .error err => return .error (.wrap "auth: Login generate token: " err)
      | .ok token =>
        let expiresAt := (← Db.now) + sessionTTL
        match ← UserStore.createSession user.id token expiresAt with
        | .error err => return .error (.wrap "auth: Login create session: " err)
        | .ok () => return .ok token

/-- The user associated with the token, none if the session is expired or does not exist. -/
def validateSession (token : String) : Db (Except GoError (Option User)) := do
  match ← UserStore.getSessionByToken token with
  | .error err => return .error (.wrap "auth: ValidateSession: " err)
  | .ok none => return .ok none
  | .ok (some sess) =>
    return (← UserStore.getUserByID sess.userID).mapError
      (GoError.wrap "auth: ValidateSession user lookup: ")

/-- Invalidates the session associated with a token. -/
def logout (token : String) : Db (Except GoError Unit) := do
  return (← UserStore.deleteSession token).mapError (GoError.wrap "auth: Logout: ")

/-- Creates a new user account. -/
def createUser (bc : Bcrypt) (username password role : String) : Db (Except GoError User) := do
  match ← UserStore.getUserByUsername username with
  | .error err => return .error (.wrap "auth: CreateUser: " err)
  | .ok (some _) => return .error errUserExists
  | .ok none =>
    match ← generateFromPassword bc password with
    | .error err => return .error (.wrap "auth: CreateUser hash: " err)
    | .ok hash =>
      match ← UserStore.createUser username hash role with
      | .error err => return .error (.wrap "auth: CreateUser store: " err)
      | .ok none => return .error nilDereference
      | .ok (some u) => return .ok { u with passwordHash := "" }

/-- Updates the password for the given user. -/
def changePassword (bc : Bcrypt) (userID : ℤ) (newPassword : String) : Db (Except GoError Unit) := do
  match ← generateFromPassword bc newPassword with
  | .error err => return .error (.wrap "auth: ChangePassword hash: " err)
  | .ok hash => UserStore.updateUserPassword userID hash

/-- Updates the role of a user. -/
def changeRole (userID : ℤ) (role : String) : Db (Except GoError Unit) :=
  UserStore.updateUserRole userID role

/-- What `DeleteUser` checks: may the user be removed? `none` when there is nothing to do. -/
def mayDelete (userID : ℤ) : Db (Except GoError (Option Unit)) := do
  match ← UserStore.getUserByID userID with
  | .error err => return .error (.wrap "auth: DeleteUser: " err)
  | .ok none => return .ok none
  | .ok (some user) =>
    if user.role = roleAdmin then
      match ← UserStore.listUsers with
      | .error err => return .error (.wrap "auth: DeleteUser list: " err)
      | .ok users =>
        if (users.countP fun u => u.role = roleAdmin) ≤ 1 then return .error errLastAdmin
        else return .ok (some ())
    else return .ok (some ())

/-- Removes a user, preventing deletion of the last admin. -/
def deleteUser (userID : ℤ) : Db (Except GoError Unit) := do
  match ← mayDelete userID with
  | .error err => return .error err
  | .ok none => return .ok ()
  | .ok (some ()) => UserStore.deleteUser userID

end Service

end VaultsSyncer
