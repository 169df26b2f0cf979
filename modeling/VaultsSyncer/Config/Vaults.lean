import VaultsSyncer.GoStd.Strings

/-! The configuration of a vault (`config/types.go`). A map is the list of its entries in the order the
    program goes through them; where it makes a difference whether it is nil, it is an `Option`. -/

namespace VaultsSyncer

open GoStd

/-- OAuth 2.0 authentication. -/
structure OAuthConfig where
  tokenEndpoint : String := ""
  clientID : String := ""
  clientSecret : String := ""
  scope : String := ""
  extraParams : List (String × String) := []

/-- Structured authentication. -/
structure AuthConfig where
  method : String
  headers : List (String × String) := []
  oauth : Option OAuthConfig := none

/-- How to extract data from responses. -/
structure ResponseParserConfig where
  listPath : String := ""
  nameField : String := ""
  valuePath : String := ""

/-- Vault-specific behaviour for an operation. -/
structure OperationConfig where
  method : String := ""
  endpoint : String := ""
  statusCodes : List ℤ := []
  responseParser : Option ResponseParserConfig := none

/-- How secrets are structured in requests. -/
structure FieldNamesConfig where
  nameField : String := ""
  valueField : String := ""

/-- How to parse the stdout of a CLI command. -/
structure ToolOutputConfig where
  format : String := ""
  path : String := ""
  nameField : String := ""

/-- The CLI command used for a single vault operation. -/
structure ToolOperationConfig where
  command : String := ""
  args : List String := []
  output : ToolOutputConfig := {}
  successExitCodes : List ℤ := []

/-- The contents of a per-tool configuration file. -/
structure ExternalToolConfig where
  env : List (String × String) := []
  envPassthrough : List String := []
  operations : List (String × Option ToolOperationConfig) := []

structure VaultConfig where
  id : String := ""
  name : String := ""
  type : String := ""
  endpoint : String := ""
  method : String := ""
  auth : Option AuthConfig := none
  fieldNames : FieldNamesConfig := {}
  headers : List (String × String) := []
  /-- `operations_override`. -/
  operations : Option (List (String × Option OperationConfig)) := none
  /-- In seconds. -/
  timeout : ℤ := 0
  skipSSLVerify : Bool := false
  toolConfig : String := ""
  /-- What the YAML loader reads from the file `toolConfig`; not part of the JSON form. -/
  resolvedTool : Option ExternalToolConfig := none
  /-- No longer supported, and not part of the JSON form. -/
  legacyAuthMethod : String := ""
  legacyAuthHeaders : List (String × String) := []

/-- The entry of a map, nil where it is absent. -/
def entry {α : Type} (m : List (String × Option α)) (k : String) : Option α := (m.lookup k).join

namespace VaultConfig

/-- The entries of `OperationsOverride`; a nil map has none. -/
def operationEntries (vc : VaultConfig) : List (String × Option OperationConfig) :=
  vc.operations.getD []

/-- `OperationsOverride[op]`. -/
def operationsOverride (vc : VaultConfig) (op : String) : Option OperationConfig :=
  entry vc.operationEntries op

/-- Returns the vault type, defaulting to "generic". -/
def getVaultType (vc : VaultConfig) : String := if vc.type ≠ "" then vc.type else "generic"

/-- Initializes optional fields with sensible defaults. -/
def populateDefaults (vc : VaultConfig) : VaultConfig := { vc with type := vc.getVaultType }

@[simp] theorem getVaultType_populateDefaults (vc : VaultConfig) :
    vc.populateDefaults.getVaultType = vc.getVaultType := by
  by_cases h : vc.type = "" <;> simp [populateDefaults, getVaultType, h]

end VaultConfig

end VaultsSyncer
