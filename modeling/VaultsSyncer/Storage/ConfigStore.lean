import VaultsSyncer.Config.Json
import VaultsSyncer.Config.Loader
import VaultsSyncer.Storage.Stores

/-! The stored configuration (`storage/config_store.go`): vaults and syncs as JSON rows, with the
    secrets of a vault's `auth` encrypted. -/

namespace VaultsSyncer

open GoStd Schemes Schemes.Prog

/-- An AES-GCM cipher under one key: it seals with a nonce, and opens what it has sealed. -/
structure Encryptor where
  encrypt : Bytes → String → String
  decrypt : String → Except GoError String
  decrypt_encrypt : ∀ nonce s, decrypt (encrypt nonce s) = .ok s
  encrypt_ne_empty : ∀ nonce s, encrypt nonce s ≠ ""

/-- `EncryptString`: a nonce is drawn for each text. -/
def Encryptor.encryptString (e : Encryptor) (plaintext : String) : Db (Except GoError String) := do
  match ← Db.randRead 12 with
  | .error err => return .error (.wrap "security: failed to generate nonce: " err)
  | .ok nonce => return .ok (e.encrypt nonce plaintext)

/-- A cipher that puts a mark before the text, whatever the key. -/
def markingCipher : Encryptor where
  encrypt _ s := String.ofList ('#' :: s.toList)
  decrypt s := .ok (String.ofList s.toList.tail)
  decrypt_encrypt _ s := by simp
  encrypt_ne_empty _ s := by simp

structure ConfigStore where
  encryptor : Option Encryptor := none
  /-- The error of encoding/json for a text it does not take. -/
  jsonErr : String → GoError := GoError.new

/-- The name of a table in SQL. -/
def ConfigTable.name : ConfigTable → String
  | .vaults => "config_vaults"
  | .syncs => "config_syncs"

/-! ### Credentials -/

/-- Encrypts the values of the auth headers. -/
def encryptHeaders (e : Encryptor) :
    List (String × String) → Db (Except GoError (List (String × String)))
  | [] => return .ok []
  | (k, val) :: rest => do
    match ← e.encryptString val with
    | .error err => return .error (.wrap ("storage: encrypt auth header " ++ goQuote k ++ ": ") err)
    | .ok enc =>
      match ← encryptHeaders e rest with
      | .error err => return .error err
      | .ok rest => return .ok ((k, enc) :: rest)

/-- Encrypts the client secret, where there is one. -/
def encryptOAuth (e : Encryptor) : Option OAuthConfig → Db (Except GoError (Option OAuthConfig))
  | none => return .ok none
  | some oauth => do
    if oauth.clientSecret = "" then return .ok (some oauth)
    else
      match ← e.encryptString oauth.clientSecret with
      | .error err => return .error (.wrap "storage: encrypt OAuth client_secret: " err)
      | .ok enc => return .ok (some { oauth with clientSecret := enc })

/-- Encrypts sensitive auth fields. -/
def encryptVaultAuth (e : Encryptor) (v : VaultConfig) : Db (Except GoError VaultConfig) := do
  match v.auth with
  | none => return .ok v
  | some auth =>
    match ← encryptHeaders e auth.headers with
    | .error err => return .error err
    | .ok headers =>
      match ← encryptOAuth e auth.oauth with
      | .error err => return .error err
      | .ok oauth => return .ok { v with auth := some { auth with headers := headers, oauth := oauth } }

def decryptHeaders (e : Encryptor) (headers : List (String × String)) :
    Except GoError (List (String × String)) :=
  headers.mapM fun (k, val) =>
    match e.decrypt val with
    | .error err => .error (.wrap ("storage: decrypt auth header " ++ goQuote k ++ ": ") err)
    | .ok dec => .ok (k, dec)

def decryptOAuth (e : Encryptor) : Option OAuthConfig → Except GoError (Option OAuthConfig)
  | none => .ok none
  | some oauth =>
    if oauth.clientSecret = "" then .ok (some oauth)
    else
      match e.decrypt oauth.clientSecret with
      | .error err => .error (.wrap "storage: decrypt OAuth client_secret: " err)
      | .ok dec => .ok (some { oauth with clientSecret := dec })

/-- Decrypts sensitive auth fields. -/
def decryptVaultAuth (e : Encryptor) (v : VaultConfig) : Except GoError VaultConfig :=
  match v.auth with
  | none => .ok v
  | some auth => do
    let headers ← decryptHeaders e auth.headers
    let oauth ← decryptOAuth e auth.oauth
    return { v with auth := some { auth with headers := headers, oauth := oauth } }

namespace ConfigStore

variable (s : ConfigStore)

/-! ### Rows -/

def upsertConfigRow (t : ConfigTable) (id jsonValue : String) : Db (Except GoError Unit) := do
  let now ← Db.now
  match ← Db.exec ("storage: upsert " ++ t.name ++ " update: ") (.updateConfig t id jsonValue now) with
  | .error err => return .error err
  | .ok res =>
    match ← Db.rowsAffected ("storage: upsert " ++ t.name ++ " rowsAffected: ") res with
    | .error err => return .error err
    | .ok n =>
      if n = 0 then
        Db.exec ("storage: upsert " ++ t.name ++ " insert: ") (.insertConfig t id jsonValue now)
      else return .ok ()

/-- The JSON of a row, empty where there is none. -/
def getConfigJSON (t : ConfigTable) (id : String) : Db (Except GoError String) := do
  match ← Db.exec ("storage: getConfigJSON " ++ t.name ++ ": ") (.selectConfig t id) with
  | .error err => return .error err
  | .ok raw => return .ok (raw.getD "")

/-! ### Vaults -/

/-- Inserts or replaces a vault configuration. -/
def saveVault (v : VaultConfig) : Db (Except GoError Unit) := do
  match s.encryptor with
  | none => upsertConfigRow .vaults v.id (VaultConfig.codec.marshal v)
  | some e =>
    match ← encryptVaultAuth e v with
    | .error err => return .error err
    | .ok raw => upsertConfigRow .vaults v.id (VaultConfig.codec.marshal raw)

/-- What a row of a vault says: parsed, and decrypted. -/
def readVault (pre raw : String) : Except GoError VaultConfig :=
  match VaultConfig.codec.unmarshal raw with
  | none => .error (.wrap pre (s.jsonErr raw))
  | some v =>
    match s.encryptor with
    | none => .ok v
    | some e => decryptVaultAuth e v

/-- Retrieves a single vault config by ID. -/
def getVault (id : String) : Db (Except GoError (Option VaultConfig)) := do
  match ← getConfigJSON .vaults id with
  | .error err => return .error err
  | .ok raw =>
    if raw = "" then return .ok none
    else return (s.readVault "storage: GetVault unmarshal: " raw).map some

/-- Returns all stored vault configurations. -/
def listVaults : Db (Except GoError (List VaultConfig)) := do
  match ← Db.exec "storage: ListVaults query: " (.selectConfigs .vaults) with
  | .error err => return .error err
  | .ok rows => return rows.mapM (s.readVault "storage: ListVaults unmarshal: ")

/-- Removes a vault configuration by ID. -/
def deleteVault (id : String) : Db (Except GoError Unit) :=
  Db.exec "storage: DeleteVault: " (.deleteConfig .vaults id)

/-! ### Syncs -/

/-- Inserts or replaces a sync configuration. -/
def saveSync (sc : SyncConfig) : Db (Except GoError Unit) :=
  upsertConfigRow .syncs sc.id (SyncConfig.codec.marshal sc)

def readSync (pre raw : String) : Except GoError SyncConfig :=
  match SyncConfig.codec.unmarshal raw with
  | none => .error (.wrap pre (s.jsonErr raw))
  | some sc => .ok sc

/-- Retrieves a single sync config by ID. -/
def getSync (id : String) : Db (Except GoError (Option SyncConfig)) := do
  match ← getConfigJSON .syncs id with
  | .error err => return .error err
  | .ok raw =>
    if raw = "" then return .ok none
    else return (s.readSync "storage: GetSync unmarshal: " raw).map some

/-- Returns all stored sync configurations. -/
def listSyncs : Db (Except GoError (List SyncConfig)) := do
  match ← Db.exec "storage: ListSyncs query: " (.selectConfigs .syncs) with
  | .error err => return .error err
  | .ok rows => return rows.mapM (s.readSync "storage: ListSyncs unmarshal: ")

/-- Removes a sync configuration by ID. -/
def deleteSync (id : String) : Db (Except GoError Unit) :=
  Db.exec "storage: DeleteSync: " (.deleteConfig .syncs id)

/-- Assembles the configuration from the database. -/
def loadConfig : Db (Except GoError Config) := do
  match ← s.listVaults with
  | .error err => return .error (.wrap "storage: LoadConfig vaults: " err)
  | .ok vaults =>
    match ← s.listSyncs with
    | .error err => return .error (.wrap "storage: LoadConfig syncs: " err)
    | .ok syncs => return .ok { vaults := vaults, syncs := syncs }

end ConfigStore

end VaultsSyncer
