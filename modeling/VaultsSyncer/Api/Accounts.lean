import VaultsSyncer.Auth.Middleware

/-! The handlers for sign-in, user management and first-run setup (`api/handler_auth.go`,
    `api/handler_users.go`, `api/handler_setup.go`). A body is what the JSON decoder makes of it, none
    where the decoder fails; a path value is the text in the URL. -/

namespace VaultsSyncer

open GoStd Schemes Schemes.Prog

/-! ### Sign-in -/

/-- The payload of `POST /api/auth/login`. -/
structure LoginRequest where
  username : String := ""
  password : String := ""

namespace AuthHandler

/-- Authenticates a user and returns a session token. -/
def login (bc : Bcrypt) (body : Option LoginRequest) : Db ApiReply := do
  match body with
  | none => return jsonError "invalid request body" 400
  | some req =>
    if req.username = "" ∨ req.password = "" then
      return jsonError "username and password are required" 400
    else
      match ← Service.login bc req.username req.password with
      | .error err =>
        if errorIs err errInvalidCredentials then return jsonError "invalid credentials" 401
        else return jsonError "internal error" 500
      | .ok token => return jsonOK (.object [("token", .string token)])

/-- Invalidates the current session. -/
def logout (r : AuthHeaders) : Db ApiReply := do
  if extractToken r ≠ "" then
    let _ ← Service.logout (extractToken r)
    return jsonOK (.object [("status", .string "logged out")])
  else return jsonOK (.object [("status", .string "logged out")])

end AuthHandler

/-! ### User management -/

/-- The payload of `POST /api/users`. -/
structure CreateUserRequest where
  username : String := ""
  password : String := ""
  role : String := ""

/-- The payload of `PUT /api/users/{id}`. -/
structure UpdateUserRequest where
  password : String := ""
  role : String := ""

/-- How a user is written: under the names of the Go fields. -/
def User.json (u : User) : Json :=
  .object [("ID", .int u.id), ("Username", .string u.username),
    ("PasswordHash", .string u.passwordHash), ("Role", .string u.role),
    ("CreatedAt", .int u.createdAt), ("UpdatedAt", .int u.updatedAt)]

namespace UsersHandler

/-- Adds a new user account. -/
def createUser (bc : Bcrypt) (body : Option CreateUserRequest) : Db ApiReply := do
  match body with
  | none => return jsonError "invalid request body" 400
  | some req =>
    if req.username = "" ∨ req.password = "" then
      return jsonError "username and password are required" 400
    else if byteLength req.password < 8 then
      return jsonError "password must be at least 8 characters" 400
    else
      let role := if req.role = "" then roleUser else req.role
      if role ≠ roleAdmin ∧ role ≠ roleUser then
        return jsonError "role must be 'admin' or 'user'" 400
      else
        match ← Service.createUser bc req.username req.password role with
        | .error err =>
          if errorIs err errUserExists then return jsonError "username already exists" 409
          else return jsonError "failed to create user" 500
        | .ok user => return { jsonOK user.json with status := 201 }

/-- The first half of `UpdateUser`: the reply that ends it, if there is one. -/
def updatePassword (bc : Bcrypt) (userID : ℤ) (password : String) : Db (Option ApiReply) := do
  if password = "" then return none
  else if byteLength password < 8 then
    return some (jsonError "password must be at least 8 characters" 400)
  else
    match ← Service.changePassword bc userID password with
    | .error _ => return some (jsonError "failed to update password" 500)
    | .ok () => return none

/-- The second half of `UpdateUser`. -/
def updateRole (userID : ℤ) (role : String) : Db (Option ApiReply) := do
  if role = "" then return none
  else if role ≠ roleAdmin ∧ role ≠ roleUser then
    return some (jsonError "role must be 'admin' or 'user'" 400)
  else
    match ← Service.changeRole userID role with
    | .error _ => return some (jsonError "failed to update role" 500)
    | .ok () => return none

/-- Modifies an existing user: the password first, then the role. -/
def updateUser (bc : Bcrypt) (userID : String) (body : Option UpdateUserRequest) : Db ApiReply := do
  match parseInt64 userID with
  | none => return jsonError "invalid user_id" 400
  | some id =>
    match body with
    | none => return jsonError "invalid request body" 400
    | some req =>
      match ← updatePassword bc id req.password with
      | some reply => return reply
      | none =>
        match ← updateRole id req.role with
        | some reply => return reply
        | none => return jsonOK (.object [("status", .string "updated")])

/-- Removes a user account other than the caller's own. -/
def deleteUserAccount (caller : Option User) (userID : String) : Db ApiReply := do
  match parseInt64 userID with
  | none => return jsonError "invalid user_id" 400
  | some id =>
    if caller.map User.id = some id then return jsonError "cannot delete your own account" 400
    else
      match ← Service.deleteUser id with
      | .error _ => return jsonError "failed to delete user" 500
      | .ok () => return jsonOK (.object [("status", .string "deleted")])

end UsersHandler

/-! ### First-run setup -/

/-- The payload of `POST /api/setup`. -/
structure SetupRequest where
  adminUsername : String := ""
  adminPassword : String := ""

namespace SetupHandler

/-- What `CompleteSetup` does where setup is not complete. -/
def createAdmin (bc : Bcrypt) (body : Option SetupRequest) : Db ApiReply := do
  match body with
  | none => return jsonError "invalid request body" 400
  | some req =>
    if req.adminUsername = "" ∨ req.adminPassword = "" then
      return jsonError "admin_username and admin_password are required" 400
    else if byteLength req.adminPassword < 8 then
      return jsonError "admin_password must be at least 8 characters" 400
    else
      match ← Service.setupAdmin bc req.adminUsername req.adminPassword with
      | .error err =>
        if errorIs err errUserExists then return jsonError "username already exists" 409
        else return jsonError "failed to create admin account" 500
      | .ok () =>
        match ← SettingsStore.markSetupComplete with
        | .error _ => return jsonError "internal error" 500
        | .ok () => return jsonOK (.object [("status", .string "setup complete")])

/-- Creates the admin account and marks setup as complete. -/
def completeSetup (bc : Bcrypt) (body : Option SetupRequest) : Db ApiReply := do
  match ← SettingsStore.isSetupComplete with
  | .error _ => return jsonError "internal error" 500
  | .ok true => return jsonError "setup already completed" 409
  | .ok false => createAdmin bc body

end SetupHandler

/-! ### Routes -/

/-- The requests that act on users and sessions. -/
inductive AccountRequest where
  | setup (body : Option SetupRequest)
  | login (body : Option LoginRequest)
  | logout (r : AuthHeaders)
  | createUser (r : AuthHeaders) (body : Option CreateUserRequest)
  | updateUser (r : AuthHeaders) (userID : String) (body : Option UpdateUserRequest)
  | deleteUserAccount (r : AuthHeaders) (userID : String)

/-- What the mux makes of a request. -/
def AccountRequest.program (bc : Bcrypt) : AccountRequest → Db ApiReply
  | .setup body => SetupHandler.completeSetup bc body
  | .login body => AuthHandler.login bc body
  | .logout r => authed r fun _ => AuthHandler.logout r
  | .createUser r body => adminOnly r fun _ => UsersHandler.createUser bc body
  | .updateUser r userID body => adminOnly r fun _ => UsersHandler.updateUser bc userID body
  | .deleteUserAccount r userID =>
    adminOnly r fun user => UsersHandler.deleteUserAccount (some user) userID

end VaultsSyncer
