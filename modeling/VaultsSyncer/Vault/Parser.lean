import VaultsSyncer.Config.Vaults
import VaultsSyncer.GoStd.JsonValue

/-! Response parsers (`vault/parser.go`). Response bodies are valid UTF-8 text. How encoding/json words
    the error for a body is left open (`jsonErr`). -/

namespace VaultsSyncer

open GoStd

/-- Extracts fields from responses using simple JSONPath-like notation. -/
structure JsonPathParser where
  listPath : String := ""
  nameField : String := ""
  valuePath : String := ""
  valueField : String := ""
  deriving DecidableEq

/-- `fmt.Sprintf("%T", v)` of what `json.Unmarshal` makes. -/
def typeName : Value → String
  | .null => "<nil>"
  | .bool _ => "bool"
  | .number _ => "float64"
  | .string _ => "string"
  | .array _ => "[]interface {}"
  | .object _ => "map[string]interface {}"

/-- `json.Unmarshal` into a `map[string]interface{}`; `null` leaves the map nil. -/
def unmarshalMap (body : String) : Option (List (String × Value)) :=
  match unmarshal body.toList with
  | some (.object m) => some m
  | some .null => some []
  | _ => none

theorem unmarshalMap_marshal {m : List (String × Value)} (hord : (Value.object m).Ordered)
    (hdepth : (Value.object m).toJson.depth ≤ maxNestingDepth) :
    unmarshalMap (String.ofList (marshal (.object m))) = some m := by
  rw [unmarshalMap, String.toList_ofList, unmarshal_marshal hord hdepth]

namespace JsonPathParser

/-- The parts of a path, one after the other. -/
def navigate : Value → List String → Except GoError Value
  | current, [] => .ok current
  | current, part :: parts =>
    if part = "" then navigate current parts
    else match current with
      | .object m =>
        match m.lookup part with
        | some val => navigate val parts
        | none => .error (.new ("path not found: " ++ part))
      | v => .error (.new ("cannot navigate through " ++ typeName v))

/-- Navigates through nested JSON using dot notation. -/
def getValueAtPath (data : Value) (path : String) : Except GoError Value :=
  navigate data (split path '.')

/-- Converts various types to string. -/
def valueToString : Value → String
  | .string s => s
  | .null => "<nil>"
  | .bool b => if b then "true" else "false"
  | .number f => String.ofList f.formatV
  | v => String.ofList (marshal v)

variable (jsonErr : String → GoError)

/-- The first of the usual fields that is there. -/
def defaultField (data : List (String × Value)) : Option Value :=
  ["value", "data", "secret"].findSome? fun fieldName => data.lookup fieldName

/-- Extracts a single value from a response. -/
def parseGetValue (p : JsonPathParser) (body : String) : Except GoError String :=
  match unmarshalMap body with
  | none => .error (.wrap "failed to parse JSON response: " (jsonErr body))
  | some data =>
    let atPath : Option Value :=
      if p.valuePath ≠ "" then (getValueAtPath (.object data) p.valuePath).toOption else none
    let atField : Option Value := if p.valueField ≠ "" then data.lookup p.valueField else none
    match (atPath.or atField).or (defaultField data) with
    | some val => .ok (valueToString val)
    | none => .error (.new "could not extract value from response")

/-- The array behind a field, if there is one. -/
def arrayField (data : List (String × Value)) (field : String) : Option (List Value) :=
  match data.lookup field with
  | some (.array items) => some items
  | _ => none

/-- The name an item of a list carries. -/
def itemName (p : JsonPathParser) : Value → Option String
  | .object item =>
    match item.lookup (if p.nameField = "" then "name" else p.nameField) with
    | some (.string name) => some name
    | _ => none
  | .string str => some str
  | _ => none

/-- Extracts a list of secret names from a response. -/
def parseList (p : JsonPathParser) (body : String) : Except GoError (List String) :=
  match unmarshalMap body with
  | none => .error (.wrap "failed to parse JSON response: " (jsonErr body))
  | some data =>
    let items : List Value :=
      if p.listPath ≠ "" then
        match getValueAtPath (.object data) p.listPath with
        | .ok (.array items) => items
        | _ => []
      else []
    let items := if items.isEmpty then
        (["data", "value", "keys"].findSome? (arrayField data)).getD []
      else items
    .ok (items.filterMap p.itemName)

end JsonPathParser

/-- Returns an appropriate parser based on vault type. -/
def getParserForVaultType (vaultType : String) : JsonPathParser :=
  let t := toLower vaultType
  if t = "vaultwarden" then { listPath := "data", nameField := "name", valuePath := "data" }
  else if t = "bitwarden" then { listPath := "data", nameField := "name", valuePath := "data" }
  else if t = "vault" then { listPath := "data.keys", nameField := "key", valuePath := "data.data" }
  else if t = "azure" then { listPath := "value", nameField := "name", valuePath := "value" }
  else if t = "keeper" then { listPath := "records", nameField := "title", valuePath := "data" }
  else if t = "aws" then
    { listPath := "SecretList", nameField := "Name", valuePath := "SecretString" }
  else { listPath := "data", nameField := "name", valuePath := "value" }

/-- Creates a parser from configuration. -/
def newParserFromConfig : Option ResponseParserConfig → JsonPathParser
  | none => getParserForVaultType "generic"
  | some cfg =>
    { listPath := cfg.listPath, nameField := cfg.nameField, valuePath := cfg.valuePath }

namespace JsonPathParser

/-- A response with nothing but the value, read with the generic parser. -/
theorem parseGetValue_generic (jsonErr : String → GoError) {vaultType body : String} {v : Value}
    (ht : toLower vaultType = "generic")
    (hbody : unmarshal body.toList = some (.object [("value", v)])) :
    (getParserForVaultType vaultType).parseGetValue jsonErr body = .ok (valueToString v) := by
  have hparser : getParserForVaultType vaultType =
      { listPath := "data", nameField := "name", valuePath := "value" } := by
    rw [getParserForVaultType]
    simp [ht]
  have hpath : getValueAtPath (.object [("value", v)]) "value" = .ok v := by
    have hsplit : split "value" '.' = ["value"] := by decide +kernel
    rw [getValueAtPath, hsplit]
    rfl
  rw [hparser, parseGetValue, unmarshalMap, hbody]
  simp [hpath, Except.toOption]

end JsonPathParser

end VaultsSyncer
