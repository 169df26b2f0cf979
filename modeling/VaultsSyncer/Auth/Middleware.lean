import VaultsSyncer.Auth.Service
import VaultsSyncer.GoStd.JsonStruct

/-! What stands in front of the protected routes (`auth/middleware.go`), and the replies of the API
    (`api/helpers.go`). -/

namespace VaultsSyncer

open GoStd Schemes Schemes.Prog

/-- A reply: its status code and its body. -/
structure ApiReply where
  status : ℕ
  body : Json

def jsonOK (body : Json) : ApiReply := ⟨200, body⟩

def jsonError (message : String) (code : ℕ) : ApiReply := ⟨code, .object [("error", .string message)]⟩

/-- A 2xx reply. -/
def ApiReply.Success (r : ApiReply) : Prop := 200 ≤ r.status ∧ r.status < 300

theorem jsonOK_success (body : Json) : (jsonOK body).Success := by
  constructor <;> norm_num [jsonOK]

theorem jsonError_not_success (message : String) {code : ℕ} (h : 300 ≤ code) :
    ¬(jsonError message code).Success := fun hs => absurd hs.2 (not_lt.mpr h)

instance (r : ApiReply) : Decidable r.Success := inferInstanceAs (Decidable (_ ∧ _))

/-- What of a request the session token is read from: the `Authorization` header, empty where there
    is none, and the `session_token` cookie. -/
structure AuthHeaders where
  authorization : String := ""
  sessionCookie : Option String := none

/-- Reads the bearer token from the Authorization header or a cookie. -/
def extractToken (r : AuthHeaders) : String :=
  if hasPrefix r.authorization "Bearer " then
    String.ofList (r.authorization.toList.drop "Bearer ".length)
  else r.sessionCookie.getD ""

/-- Enforces a valid session token: the user in the context of the request, or the reply. -/
def requireAuth (r : AuthHeaders) : Db (Except ApiReply User) := do
  if extractToken r = "" then return .error (jsonError "unauthorized" 401)
  else
    match ← Service.validateSession (extractToken r) with
    | .error _ => return .error (jsonError "unauthorized" 401)
    | .ok none => return .error (jsonError "unauthorized" 401)
    | .ok (some user) => return .ok user

/-- Enforces admin role. -/
def requireAdmin (user : User) : Except ApiReply User :=
  if user.role ≠ roleAdmin then .error (jsonError "forbidden" 403) else .ok user

/-- `requireAuth(next)`. -/
def authed (r : AuthHeaders) (next : User → Db ApiReply) : Db ApiReply := do
  match ← requireAuth r with
  | .error reply => return reply
  | .ok user => next user

/-- `requireAuth(requireAdmin(next))`. -/
def adminOnly (r : AuthHeaders) (next : User → Db ApiReply) : Db ApiReply :=
  authed r fun user =>
    match requireAdmin user with
    | .error reply => return reply
    | .ok user => next user

end VaultsSyncer
