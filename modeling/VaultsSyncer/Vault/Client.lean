import VaultsSyncer.GoStd.Base64
import VaultsSyncer.Schemes.Prog
import VaultsSyncer.Sync.World
import VaultsSyncer.Vault.Parser

/-! The HTTP client of a vault (`vault/client.go`). What goes through net/http is a call, and so is the
    OAuth token (`getOAuthToken`); everything else is computed here. A nil `Auth` is dereferenced by
    `addAuthHeaders`, which ends the program. -/

namespace VaultsSyncer

open GoStd Schemes Schemes.Prog

structure Request where
  method : String
  url : String
  headers : List (String × String) := []
  body : Option String := none
  deriving DecidableEq

/-- A response: its status, and what `io.ReadAll` returns for its body. -/
structure Response where
  statusCode : ℤ
  body : String
  readError : Option GoError := none

/-- The calls of the client: `http.NewRequest` (does the method and the URL parse?), `getOAuthToken`
    and `http.Client.Do`. -/
inductive HttpCall where
  | newRequest (method url : String)
  | oauthToken
  | do (req : Request)

abbrev HttpCall.Ans : HttpCall → Type
  | .newRequest _ _ => Option GoError
  | .oauthToken => Except GoError String
  | .do _ => Except GoError Response

/-- How a client method can fail. -/
inductive Failure where
  | error (err : GoError)
  | nilDereference

/-- A program of the client. -/
abbrev Http (α : Type) := ExceptT Failure (Prog HttpCall HttpCall.Ans) α

/-- The HTTP surroundings: network, servers and token endpoint. -/
abbrev Network (σ : Type) := Handler HttpCall HttpCall.Ans σ

namespace Http

def fail {α : Type} (err : GoError) : Http α := throw (.error err)

def newRequest (method url : String) : Http (Option GoError) :=
  ExceptT.lift (perform (HttpCall.newRequest method url))

def getOAuthToken : Http (Except GoError String) := ExceptT.lift (perform HttpCall.oauthToken)

def clientDo (req : Request) : Http (Except GoError Response) :=
  ExceptT.lift (perform (HttpCall.do req))

/-- What a client program returns, and the surroundings it leaves. -/
def exec {σ α : Type} (net : Network σ) (p : Http α) (s : σ) : Except Failure α × σ :=
  Prog.run net p.run s

end Http

/-! ### Headers -/

/-- A byte that may stand in a header field name. -/
def isTokenChar (c : Char) : Bool :=
  c.isAlphanum || c ∈ ['!', '#', '$', '%', '&', '\'', '*', '+', '-', '.', '^', '_', '\x60', '|', '~']

/-- The letters of a header name, upper case at the start and after a dash. -/
def canonicalChars (upper : Bool) : List Char → List Char
  | [] => []
  | c :: cs => (if upper then c.toUpper else c.toLower) :: canonicalChars (c = '-') cs

/-- `http.CanonicalHeaderKey`. -/
def canonicalHeaderKey (k : String) : String :=
  if k.toList.all isTokenChar then String.ofList (canonicalChars true k.toList) else k

/-- `req.Header.Set(k, v)`. -/
def Request.setHeader (req : Request) (k v : String) : Request :=
  let key := canonicalHeaderKey k
  { req with headers := req.headers.filter (fun e => e.1 ≠ key) ++ [(key, v)] }

/-! ### The client and its defaults -/

/-- Handles communication with a vault. -/
structure Client where
  cfg : VaultConfig
  parser : JsonPathParser

def hashiCorpListEndpoint (base : String) : String :=
  let listBase :=
    if contains base "/data/" then replaceOne base "/data/" "/metadata/"
    else if hasSuffix base "/data" then trimSuffix base "/data" ++ "/metadata"
    else base
  trimSuffix listBase "/" ++ "?list=true"

def hashiCorpDeleteEndpoint (base : String) : String :=
  let deleteBase :=
    if contains base "/data/" then replaceOne base "/data/" "/metadata/"
    else if hasSuffix base "/data" then trimSuffix base "/data" ++ "/metadata"
    else base
  trimSuffix deleteBase "/" ++ "/{name}"

/-- What the user left open is filled in. -/
def OperationConfig.withDefaults (current defaults : OperationConfig) : OperationConfig where
  method := if current.method = "" then defaults.method else current.method
  endpoint := if current.endpoint = "" then defaults.endpoint else current.endpoint
  statusCodes := if current.statusCodes = [] then defaults.statusCodes else current.statusCodes
  responseParser := current.responseParser.or defaults.responseParser

def mergeOperationDefaults (cfg : VaultConfig) (name : String) (defaults : OperationConfig) :
    VaultConfig :=
  let merged := match cfg.operationsOverride name with
    | none => defaults
    | some current => current.withDefaults defaults
  { cfg with operations := some ((name, some merged) :: cfg.operationEntries.filter fun e => e.1 ≠ name) }

/-- The defaults of an operation by vault type, in the order they are merged. -/
def operationDefaults (vaultType endpoint : String) : List (String × OperationConfig) :=
  let base := trimSuffix endpoint "/"
  let t := toLower vaultType
  if t = "azure" then
    let secretEndpoint := base ++ "/{name}?api-version=7.4"
    [("list", {
        method := "GET"
        endpoint := base ++ "?api-version=7.4"
        responseParser := some { listPath := "value", nameField := "name" } }),
      ("get", {
        method := "GET"
        endpoint := secretEndpoint
        responseParser := some { valuePath := "value" } }),
      ("set", { method := "PUT", endpoint := secretEndpoint, statusCodes := [200, 201] }),
      ("delete", { method := "DELETE", endpoint := secretEndpoint, statusCodes := [200, 204] })]
  else if t = "vault" then
    let dataEndpoint := base ++ "/{name}"
    [("list", {
        method := "GET"
        endpoint := hashiCorpListEndpoint base
        responseParser := some { listPath := "data.keys", nameField := "key" } }),
      ("get", {
        method := "GET"
        endpoint := dataEndpoint
        responseParser := some { valuePath := "data.data" } }),
      ("set", { method := "POST", endpoint := dataEndpoint, statusCodes := [200, 201, 204] }),
      ("delete", {
        method := "DELETE"
        endpoint := hashiCorpDeleteEndpoint base
        statusCodes := [200, 204] })]
  else if t = "bitwarden" ∨ t = "vaultwarden" then
    [("list", {
        method := "GET"
        responseParser := some { listPath := "data", nameField := "name" } }),
      ("set", { method := "POST", endpoint := base, statusCodes := [200, 201] }),
      ("delete", { method := "DELETE", endpoint := base ++ "/{name}", statusCodes := [200, 204] })]
  else if t = "keeper" then
    [("list", {
        method := "GET"
        responseParser := some { listPath := "records", nameField := "title" } }),
      ("get", { method := "GET", responseParser := some { valuePath := "data" } })]
  else []

def applyDefaultOperations (cfg : VaultConfig) : VaultConfig :=
  (operationDefaults cfg.getVaultType cfg.endpoint).foldl
    (fun cfg d => mergeOperationDefaults cfg d.1 d.2) { cfg with operations := some cfg.operationEntries }

/-- Creates a new vault client. -/
def newClient (cfg : VaultConfig) : Client :=
  let cfg := applyDefaultOperations cfg.populateDefaults
  { cfg := cfg
    parser := match (cfg.operationsOverride "list").bind OperationConfig.responseParser with
      | some p => newParserFromConfig (some p)
      | none => getParserForVaultType cfg.getVaultType }

namespace Client

variable (c : Client)

def operationConfig (op : String) : Option OperationConfig := c.cfg.operationsOverride op

def operationEndpoint (op name : String) : String :=
  let base := trimSuffix c.cfg.endpoint "/"
  let defaultEndpoint := if op = "delete" ∨ op = "get" ∨ op = "set" then
    base ++ "/" ++ pathEscape name else base
  match c.operationConfig op with
  | some opCfg =>
    if opCfg.endpoint ≠ "" then replaceAll opCfg.endpoint "{name}" (pathEscape name)
    else defaultEndpoint
  | none => defaultEndpoint

/-- What the method of an operation is without an override. -/
def defaultMethod (op : String) : String :=
  if op = "set" then toUpper c.cfg.method else if op = "delete" then "DELETE" else "GET"

def operationMethod (op : String) : String :=
  match c.operationConfig op with
  | some opCfg => if opCfg.method ≠ "" then toUpper opCfg.method else c.defaultMethod op
  | none => c.defaultMethod op

def defaultStatusCodes (op : String) : List ℤ :=
  if op = "set" then [200, 201, 204] else if op = "delete" then [200, 204] else [200]

def operationStatusCodes (op : String) : List ℤ :=
  match c.operationConfig op with
  | some opCfg => if opCfg.statusCodes ≠ [] then opCfg.statusCodes else defaultStatusCodes op
  | none => defaultStatusCodes op

def operationParser (op : String) : JsonPathParser :=
  match (c.operationConfig op).bind OperationConfig.responseParser with
  | some p => newParserFromConfig (some p)
  | none => if op = "list" then c.parser else getParserForVaultType c.cfg.getVaultType

def isSuccessStatus (status : ℤ) (allowed : List ℤ) : Bool := allowed.any fun code => status = code

/-! ### Requests -/

/-- Adds authentication headers based on the configured auth method. -/
def addAuthHeaders (req : Request) : Http Request :=
  match c.cfg.auth with
  | none => throw .nilDereference
  | some auth =>
    let m := toLower auth.method
    if m = "oauth2" then do
      match ← Http.getOAuthToken with
      | .error err => Http.fail (.wrap "failed to get OAuth token: " err)
      | .ok token => return req.setHeader "Authorization" ("Bearer " ++ token)
    else if m = "bearer" then
      match auth.headers.lookup "token" with
      | some token => return req.setHeader "Authorization" ("Bearer " ++ token)
      | none => return req
    else if m = "basic" then
      match auth.headers.lookup "username", auth.headers.lookup "password" with
      | some username, some password =>
        let code := Base64.encode (utf8 (username ++ ":" ++ password))
        return req.setHeader "Authorization"
          ("Basic " ++ String.ofList (code.map fun b => Char.ofNat b.toNat))
      | _, _ => return req
    else if m = "api_key" then
      match auth.headers.lookup "api_key" with
      | some key => return req.setHeader "X-API-Key" key
      | none => return req
    else if m = "custom" then
      return auth.headers.foldl (fun req e => req.setHeader e.1 e.2) req
    else return req

/-- Adds custom headers from config. -/
def addCustomHeaders (req : Request) : Request :=
  c.cfg.headers.foldl (fun req e => req.setHeader e.1 e.2) req

/-- How an operation reports that `addAuthHeaders` failed. -/
def authFailure : Failure → Failure
  | .error err => .error (.wrap "failed to add auth headers: " err)
  | .nilDereference => .nilDereference

/-- A request with all its headers: the way every operation starts. -/
def buildRequest (method endpoint : String) (body : Option String) : Http Request := do
  match ← Http.newRequest method endpoint with
  | some err => Http.fail (.wrap "failed to create request: " err)
  | none =>
    let req ← ExceptT.adapt authFailure
      (c.addAuthHeaders { method := method, url := endpoint, body := body })
    return c.addCustomHeaders req

/-- Sends a request and keeps the response when its status is one of the allowed ones. -/
def send (req : Request) (failed : String) (allowed : List ℤ) : Http Response := do
  match ← Http.clientDo req with
  | .error err => Http.fail (.wrap failed err)
  | .ok resp =>
    if isSuccessStatus resp.statusCode allowed then return resp
    else Http.fail (.new ("vault returned status " ++ toString resp.statusCode ++ ": " ++ resp.body))

/-- `io.ReadAll(resp.Body)`. -/
def readAll (resp : Response) : Http String :=
  match resp.readError with
  | some err => Http.fail (.wrap "failed to read response: " err)
  | none => return resp.body

/-! ### Operations -/

variable (jsonErr : String → GoError)

def getSecretByOperation (name : String) : Http Secret := do
  let req ← c.buildRequest (c.operationMethod "get") (c.operationEndpoint "get" name) none
  let resp ← send req "failed to get secret: " (c.operationStatusCodes "get")
  let body ← readAll resp
  match (c.operationParser "get").parseGetValue jsonErr body with
  | .error err => Http.fail (.wrap "failed to parse get response: " err)
  | .ok value => return { name := name, value := utf8 value }

/-- Lists all secrets in the vault. -/
def listSecrets : Http (List String) := do
  let req ← c.buildRequest (c.operationMethod "list") (c.operationEndpoint "list" "") none
  let resp ← send req "failed to list secrets: " (c.operationStatusCodes "list")
  let body ← readAll resp
  match (c.operationParser "list").parseList jsonErr body with
  | .error err => Http.fail (.wrap "failed to parse list response: " err)
  | .ok names => return names

/-- The value of the first item that carries the name; a missing value prints as nil. -/
def findItem (name : String) (items : List Value) : Option String :=
  let nameField := if c.cfg.fieldNames.nameField = "" then "name" else c.cfg.fieldNames.nameField
  let valueField :=
    if c.cfg.fieldNames.valueField = "" then "value" else c.cfg.fieldNames.valueField
  items.findSome? fun item =>
    match item with
    | .object itemMap =>
      match itemMap.lookup nameField with
      | some (.string itemName) =>
        if itemName = name then
          some (JsonPathParser.valueToString ((itemMap.lookup valueField).getD .null))
        else none
      | _ => none
    | _ => none

def getSecretFromList (name : String) : Http Secret := do
  let secrets ← c.listSecrets jsonErr
  if name ∉ secrets then Http.fail (.new ("secret not found: " ++ name))
  else
    let req ← c.buildRequest "GET" (trimSuffix c.cfg.endpoint "/") none
    let resp ← send req "failed to get secret: " [200]
    let body ← readAll resp
    match unmarshalMap body with
    | none => Http.fail (.wrap "failed to parse response: " (jsonErr body))
    | some data =>
      match (JsonPathParser.arrayField data "data").bind (c.findItem name) with
      | some value => return { name := name, value := utf8 value }
      | none => Http.fail (.new ("could not extract secret data for: " ++ name))

/-- Retrieves a secret from the vault. -/
def getSecret (name : String) : Http Secret :=
  let vaultType := toLower c.cfg.getVaultType
  if vaultType = "vaultwarden" ∨ vaultType = "bitwarden" then c.getSecretFromList jsonErr name
  else c.getSecretByOperation jsonErr name

/-- The value a text holds when it looks like a JSON object or array and is one. -/
def jsonData (value : String) : Option Value :=
  if hasPrefix (trimSpace value) "\x7b" ∨ hasPrefix (trimSpace value) "[" then
    unmarshal value.toList
  else none

/-- The body of a set request; a later key of the map literal replaces an earlier one. -/
def payload (name value : String) : Value :=
  let valueField := c.cfg.fieldNames.valueField
  let valueData := (jsonData value).getD (.string value)
  let m := insertKey valueField valueData [(c.cfg.fieldNames.nameField, .string name)]
  .object (if toLower valueField = "login" then
    insertKey "type" (.number Float64.one) m else m)

/-- Sets a secret in the vault. -/
def setSecret (name value : String) : Http Unit := do
  let body := String.ofList (marshal (c.payload name value))
  let req ← c.buildRequest (c.operationMethod "set") (c.operationEndpoint "set" name) (some body)
  let _ ← send (req.setHeader "Content-Type" "application/json") "failed to set secret: "
    (c.operationStatusCodes "set")
  return ()

end Client

end VaultsSyncer
