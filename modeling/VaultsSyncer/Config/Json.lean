import VaultsSyncer.Config.Types
import VaultsSyncer.Config.Vaults
import VaultsSyncer.GoStd.JsonStruct

/-! The JSON form of vaults and syncs (the `json` tags of `config/types.go`), in which the API takes
    them and the config store keeps them. What is read back of a vault has neither its resolved tool
    nor its legacy fields (`json:"-"`). -/

namespace VaultsSyncer

open GoStd

def OAuthConfig.codec : Codec OAuthConfig :=
  Fields.start OAuthConfig.mk
    |>.add "token_endpoint" OAuthConfig.tokenEndpoint .string (by decide +kernel)
    |>.add "client_id" OAuthConfig.clientID .string (by decide +kernel)
    |>.add "client_secret" OAuthConfig.clientSecret .string (by decide +kernel)
    |>.add "scope" OAuthConfig.scope .string (by decide +kernel)
    |>.add "extra_params" OAuthConfig.extraParams (.map .string) (by decide +kernel)
    |>.codec {}

def AuthConfig.codec : Codec AuthConfig :=
  Fields.start AuthConfig.mk
    |>.add "method" AuthConfig.method .string (by decide +kernel)
    |>.add "headers" AuthConfig.headers (.map .string) (by decide +kernel)
    |>.add "oauth" AuthConfig.oauth (OAuthConfig.codec.pointer (Fields.codec_ne_null _ _))
      (by decide +kernel)
    |>.codec { method := "" }

def ResponseParserConfig.codec : Codec ResponseParserConfig :=
  Fields.start ResponseParserConfig.mk
    |>.add "path" ResponseParserConfig.listPath .string (by decide +kernel)
    |>.add "name_field" ResponseParserConfig.nameField .string (by decide +kernel)
    |>.add "value_path" ResponseParserConfig.valuePath .string (by decide +kernel)
    |>.codec {}

def OperationConfig.codec : Codec OperationConfig :=
  Fields.start OperationConfig.mk
    |>.add "method" OperationConfig.method .string (by decide +kernel)
    |>.add "endpoint" OperationConfig.endpoint .string (by decide +kernel)
    |>.add "status_codes" OperationConfig.statusCodes (.list .int) (by decide +kernel)
    |>.add "response" OperationConfig.responseParser
      (ResponseParserConfig.codec.pointer (Fields.codec_ne_null _ _)) (by decide +kernel)
    |>.codec {}

def FieldNamesConfig.codec : Codec FieldNamesConfig :=
  Fields.start FieldNamesConfig.mk
    |>.add "name_field" FieldNamesConfig.nameField .string (by decide +kernel)
    |>.add "value_field" FieldNamesConfig.valueField .string (by decide +kernel)
    |>.codec {}

/-- A vault of these JSON fields, in the order of the struct. -/
def VaultConfig.ofJSON (id name type endpoint method : String) (auth : Option AuthConfig)
    (fieldNames : FieldNamesConfig) (headers : List (String × String))
    (operations : Option (List (String × Option OperationConfig))) (timeout : ℤ) (skipSSLVerify : Bool)
    (toolConfig : String) : VaultConfig :=
  { id, name, type, endpoint, method, auth, fieldNames, headers, operations, timeout, skipSSLVerify
    toolConfig }

def VaultConfig.codec : Codec VaultConfig :=
  Fields.start VaultConfig.ofJSON
    |>.add "id" VaultConfig.id .string (by decide +kernel)
    |>.add "name" VaultConfig.name .string (by decide +kernel)
    |>.add "type" VaultConfig.type .string (by decide +kernel)
    |>.add "endpoint" VaultConfig.endpoint .string (by decide +kernel)
    |>.add "method" VaultConfig.method .string (by decide +kernel)
    |>.add "auth" VaultConfig.auth (AuthConfig.codec.pointer (Fields.codec_ne_null _ _))
      (by decide +kernel)
    |>.add "field_names" VaultConfig.fieldNames FieldNamesConfig.codec (by decide +kernel)
    |>.add "headers" VaultConfig.headers (.map .string) (by decide +kernel)
    |>.add "operations_override" VaultConfig.operations
      ((Codec.map (OperationConfig.codec.pointer (Fields.codec_ne_null _ _))).pointer
        (Codec.map_enc_ne_null _)) (by decide +kernel)
    |>.add "timeout" VaultConfig.timeout .int (by decide +kernel)
    |>.add "skip_ssl_verify" VaultConfig.skipSSLVerify .bool (by decide +kernel)
    |>.addOmitEmpty "tool_config" VaultConfig.toolConfig .string (by decide +kernel)
    |>.codec {}

/-- What is read back of a vault that was written. -/
def VaultConfig.reread (v : VaultConfig) : VaultConfig := VaultConfig.codec.norm v

def FilterConfig.codec : Codec FilterConfig :=
  Fields.start FilterConfig.mk
    |>.add "patterns" FilterConfig.patterns (.list .string) (by decide +kernel)
    |>.add "exclude" FilterConfig.exclude (.list .string) (by decide +kernel)
    |>.codec {}

def Transform.codec : Codec Transform :=
  Fields.start Transform.mk
    |>.add "field" Transform.field .string (by decide +kernel)
    |>.add "type" Transform.type .string (by decide +kernel)
    |>.add "value" Transform.value .string (by decide +kernel)
    |>.codec { field := "", type := "" }

def RetryPolicy.codec : Codec RetryPolicy :=
  Fields.start RetryPolicy.mk
    |>.add "max_retries" RetryPolicy.maxRetries .int (by decide +kernel)
    |>.add "initial_backoff" RetryPolicy.initialBackoff .int (by decide +kernel)
    |>.add "max_backoff" RetryPolicy.maxBackoff .int (by decide +kernel)
    |>.add "multiplier" RetryPolicy.multiplier .float (by decide +kernel)
    |>.codec {}

def SyncConfig.codec : Codec SyncConfig :=
  Fields.start SyncConfig.mk
    |>.add "id" SyncConfig.id .string (by decide +kernel)
    |>.add "source" SyncConfig.source .string (by decide +kernel)
    |>.add "targets" SyncConfig.targets (.list .string) (by decide +kernel)
    |>.add "sync_type" SyncConfig.syncType .string (by decide +kernel)
    |>.add "schedule" SyncConfig.schedule .string (by decide +kernel)
    |>.add "filter" SyncConfig.filter FilterConfig.codec (by decide +kernel)
    |>.add "transforms" SyncConfig.transforms (.list Transform.codec) (by decide +kernel)
    |>.add "retry_policy" SyncConfig.retryPolicy RetryPolicy.codec (by decide +kernel)
    |>.add "concurrent_workers" SyncConfig.concurrentWorkers .int (by decide +kernel)
    |>.add "enabled" SyncConfig.enabled (Codec.bool.pointer Codec.bool_enc_ne_null)
      (by decide +kernel)
    |>.codec { id := "", source := "", targets := [] }

/-- What is read back of a sync that was written. -/
def SyncConfig.reread (s : SyncConfig) : SyncConfig := SyncConfig.codec.norm s

theorem AuthConfig.codec_norm (a : AuthConfig) :
    AuthConfig.codec.norm a =
      { a with headers := mapOf a.headers, oauth := a.oauth.map OAuthConfig.codec.norm } := by
  have hheaders : (mapOf a.headers).map (fun e => (e.1, id e.2)) = mapOf a.headers := List.map_id _
  exact congrArg (fun h => AuthConfig.mk a.method h (a.oauth.map OAuthConfig.codec.norm)) hheaders

theorem VaultConfig.unmarshal_marshal (v : VaultConfig) :
    VaultConfig.codec.unmarshal (VaultConfig.codec.marshal v) = some v.reread :=
  Codec.unmarshal_marshal _ (by decide +kernel) v

theorem SyncConfig.unmarshal_marshal (s : SyncConfig) :
    SyncConfig.codec.unmarshal (SyncConfig.codec.marshal s) = some s.reread :=
  Codec.unmarshal_marshal _ (by decide +kernel) s

section Reread

variable (v : VaultConfig) (s : SyncConfig)

@[simp] theorem VaultConfig.reread_id : v.reread.id = v.id := rfl

@[simp] theorem VaultConfig.reread_type : v.reread.type = v.type := rfl

@[simp] theorem VaultConfig.reread_method : v.reread.method = v.method := rfl

@[simp] theorem VaultConfig.reread_resolvedTool : v.reread.resolvedTool = none := rfl

theorem VaultConfig.reread_operations : v.reread.operations = v.operations.map
    (Codec.map (OperationConfig.codec.pointer (Fields.codec_ne_null _ _))).norm := rfl

theorem VaultConfig.reread_auth : v.reread.auth = v.auth.map AuthConfig.codec.norm := rfl

@[simp] theorem SyncConfig.reread_id : s.reread.id = s.id := rfl

@[simp] theorem SyncConfig.reread_source : s.reread.source = s.source := rfl

@[simp] theorem SyncConfig.reread_targets : s.reread.targets = s.targets := List.map_id _

@[simp] theorem SyncConfig.reread_syncType : s.reread.syncType = s.syncType := rfl

@[simp] theorem SyncConfig.reread_schedule : s.reread.schedule = s.schedule := rfl

@[simp] theorem SyncConfig.reread_enabled : s.reread.enabled = s.enabled := congrFun Option.map_id _

end Reread

end VaultsSyncer
