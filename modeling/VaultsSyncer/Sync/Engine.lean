import VaultsSyncer.GoStd.Base64
import VaultsSyncer.GoStd.Integers
import VaultsSyncer.GoStd.JsonStruct
import VaultsSyncer.GoStd.Sha256
import VaultsSyncer.Schemes.Pool
import VaultsSyncer.Sync.World

/-! The sync engine (`sync/engine.go`), function by function. A backend is known by the id of the
    vault it talks to. `time.Sleep` and the retries of `withRetry` are calls like the others, so a
    program of the engine can be interrupted between any two of them. -/

namespace VaultsSyncer

open GoStd Schemes Schemes.Prog

/-- The vault ids that have a backend. -/
structure Engine where
  backends : List String

/-! ### Backend and store calls -/

def listSecrets (vault : String) : Sync (Except GoError (List String)) :=
  perform (Call.listSecrets vault)

def getSecret (vault name : String) : Sync (Except GoError Secret) :=
  perform (Call.getSecret vault name)

def setSecret (vault name : String) (value : Bytes) : Sync (Except GoError Unit) :=
  perform (Call.setSecret vault name value)

def sleep (ns : ℤ) : Sync Unit := perform (Call.sleep ns)

def now : Sync ℤ := perform Call.now

def execUpdate (obj : SyncObject) (now : ℤ) : Sync (Except GoError ℕ) :=
  perform (Call.updateSyncObject obj now)

def rowsAffected (n : ℕ) : Sync (Except GoError ℕ) := perform (Call.rowsAffected n)

def execInsert (obj : SyncObject) (now : ℤ) : Sync (Except GoError Unit) :=
  perform (Call.insertSyncObject obj now)

/-- Attempt an UPDATE, then an INSERT when no row was there. -/
def upsertSyncObject (obj : SyncObject) : Sync (Except GoError Unit) := do
  let t ← now
  match ← execUpdate obj t with
  | .error err => return .error err
  | .ok res =>
    match ← rowsAffected res with
    | .error err => return .error err
    | .ok n => if n = 0 then execInsert obj t else return .ok ()

/-- No row is not an error. -/
def getSyncObject (key : SyncKey) : Sync (Except GoError (Option SyncObject)) :=
  perform (Call.selectSyncObject key)

/-! ### Filters, checksums, retries, transforms -/

/-- Matches a glob pattern, on bytes: `*`, an exact name, a leading star or a trailing star. -/
def matchPattern (pattern name : String) : Bool :=
  let p := utf8 pattern
  let s := utf8 name
  if pattern = "*" then true
  else if pattern = name then true
  else if p.head? = some 42 ∧ s.length ≥ p.length - 1 then
    s.drop (s.length - (p.length - 1)) = p.drop 1
  else if p.getLast? = some 42 then
    if s.length < p.length - 1 then false else s.take (p.length - 1) = p.take (p.length - 1)
  else false

/-- Filters secrets based on patterns. -/
def filterSecrets (secrets : List String) (filter : FilterConfig) : List String :=
  if filter.patterns = [] ∧ filter.exclude = [] then secrets
  else
    secrets.filter fun secret =>
      if filter.exclude.any fun pattern => matchPattern pattern secret then false
      else if filter.patterns = [] then true
      else filter.patterns.any fun pattern => matchPattern pattern secret

/-- The SHA-256 hash of a value, in hexadecimal. -/
def hashString (s : Bytes) : String := hexString (Sha256.sum256 s)

/-- `float64(backoff) * policy.Multiplier`; `none` when it is out of range. -/
def RetryPolicy.product (policy : RetryPolicy) (backoff : ℤ) : Option Float64 := do
  (← Codec.nearest backoff).mul (← Codec.nearest policy.multiplier)

/-- The backoff after a sleep of `backoff`: multiplied, truncated, capped. Where the product is no int64,
    the truncation is left to the machine. -/
def nextBackoff (outOfRange : Option Float64 → ℤ) (policy : RetryPolicy) (backoff : ℤ) : ℤ :=
  let b := Float64.toInt64 outOfRange (policy.product backoff)
  if b > policy.maxBackoff then policy.maxBackoff else b

/-- `time.Duration(backoff) * time.Millisecond`. -/
def milliseconds (backoff : ℤ) : ℤ := wrap64 (backoff * 10 ^ 6)

/-- The loop of `withRetry` with `left` iterations to go; it is at `attempt`. -/
def retryLoop (policy : RetryPolicy) (fn : Sync (Except GoError Unit)) :
    ℕ → ℤ → ℤ → Option GoError → (outOfRange : Option Float64 → ℤ := Float64.amd64) →
      Sync (Except GoError Unit)
  | 0, _, _, lastErr, _ => return .error (wrapNilable "max retries exceeded: " lastErr)
  | left + 1, attempt, backoff, _, outOfRange => do
    match ← fn with
    | .ok () => return .ok ()
    | .error err =>
      if attempt < policy.maxRetries then
        sleep (milliseconds backoff)
        retryLoop policy fn left (attempt + 1) (nextBackoff outOfRange policy backoff) (some err)
          outOfRange
      else retryLoop policy fn left (attempt + 1) backoff (some err) outOfRange

/-- The number of iterations of `for attempt := 0; attempt <= MaxRetries; attempt++`. -/
def attempts (policy : RetryPolicy) : ℕ := (policy.maxRetries + 1).toNat

/-- Executes a function with exponential backoff retry. -/
def withRetry (policy : RetryPolicy) (fn : Sync (Except GoError Unit))
    (outOfRange : Option Float64 → ℤ := Float64.amd64) : Sync (Except GoError Unit) :=
  retryLoop policy fn (attempts policy) 0 policy.initialBackoff none outOfRange

/-- The given policy if it is configured, else the defaults. -/
def effectiveRetryPolicy (p : RetryPolicy) : RetryPolicy :=
  if p.maxRetries > 0 ∨ p.initialBackoff > 0 then p
  else { maxRetries := 3, initialBackoff := 1000, maxBackoff := 60000, multiplier := 2 }

/-- Applies a sequence of value transformations; other fields than `value` are skipped. -/
def applyTransforms (value : Bytes) : List Transform → Except GoError Bytes
  | [] => .ok value
  | t :: ts =>
    if t.field ≠ "value" then applyTransforms value ts
    else if t.type = "base64_encode" then applyTransforms (Base64.encode value) ts
    else if t.type = "base64_decode" then
      match Base64.decode value with
      | .error err => .error (.wrap "base64_decode transform failed: " err)
      | .ok decoded => applyTransforms decoded ts
    else .error (.new ("unsupported transform type: " ++ t.type))

/-! ### Syncing one secret -/

/-- Syncs a secret in one direction with retries. -/
def syncSecretUnidirectional (e : Engine) (syncCfg : SyncConfig) (targetID secretName : String)
    (sourceBackend : String) : Sync (Except GoError Unit) := do
  if targetID ∉ e.backends then
    return .error (.new ("target vault backend not found: " ++ targetID))
  else
    match ← getSecret sourceBackend secretName with
    | .error err => return .error (.wrap "failed to get secret from source: " err)
    | .ok secret =>
      match applyTransforms secret.value syncCfg.transforms with
      | .error err => return .error (.wrap "failed to apply transforms: " err)
      | .ok value =>
        let retryPolicy := effectiveRetryPolicy syncCfg.retryPolicy
        match ← withRetry retryPolicy (setSecret targetID secretName value) with
        | .error err =>
          let sourceChecksum := hashString secret.value
          let t ← now
          let _ ← upsertSyncObject
            { syncID := syncCfg.id, sourceVaultID := syncCfg.source, targetVaultID := targetID
              secretName := secretName, sourceChecksum := sourceChecksum, lastSyncTime := t
              lastSyncStatus := "failed", lastSyncError := err.text
              directionLast := "source_to_target" }
          return .error err
        | .ok () =>
          let sourceChecksum := hashString secret.value
          let t ← now
          let _ ← upsertSyncObject
            { syncID := syncCfg.id, sourceVaultID := syncCfg.source, targetVaultID := targetID
              secretName := secretName, sourceChecksum := sourceChecksum
              targetChecksum := sourceChecksum, lastSyncTime := t, lastSyncStatus := "success"
              directionLast := "source_to_target" }
          return .ok ()

inductive Direction where | sourceToTarget | targetToSource
  deriving DecidableEq

/-- The text of a direction in the sync database. -/
def Direction.text : Direction → String
  | .sourceToTarget => "source_to_target"
  | .targetToSource => "target_to_source"

/-- What belongs to the side a direction copies from. -/
def Direction.pick {α : Type} (d : Direction) (s t : α) : α :=
  match d with
  | .sourceToTarget => s
  | .targetToSource => t

/-- The write a direction calls for. -/
def Direction.write (d : Direction) (secretName sourceBackend targetBackend : String)
    (sourceValue targetValue : Bytes) : Sync (Except GoError Unit) :=
  match d with
  | .sourceToTarget => setSecret targetBackend secretName sourceValue
  | .targetToSource => setSecret sourceBackend secretName targetValue

/-- Which side to trust: from the source at first, later the opposite of the recorded direction
    when that is target to source, and target to source after anything else. -/
def chooseDirection : Option SyncObject → Direction
  | none => .sourceToTarget
  | some existingObj =>
    if existingObj.directionLast = "target_to_source" then .sourceToTarget else .targetToSource

/-- The key of the record of a secret. -/
def syncKey (syncCfg : SyncConfig) (targetID secretName : String) : SyncKey :=
  ⟨syncCfg.id, syncCfg.source, targetID, secretName⟩

/-- Copies the value of one side over the other and records the outcome. -/
def applyDirection (syncCfg : SyncConfig) (targetID secretName sourceBackend targetBackend : String)
    (sourceValue targetValue : Bytes) (direction : Direction) : Sync (Except GoError Unit) := do
  let retryPolicy := effectiveRetryPolicy syncCfg.retryPolicy
  let sourceChecksum := hashString sourceValue
  let targetChecksum := hashString targetValue
  match ← withRetry retryPolicy
    (direction.write secretName sourceBackend targetBackend sourceValue targetValue) with
  | .error err =>
    let t ← now
    let _ ← upsertSyncObject
      { syncID := syncCfg.id, sourceVaultID := syncCfg.source, targetVaultID := targetID
        secretName := secretName, sourceChecksum := sourceChecksum
        targetChecksum := targetChecksum, lastSyncTime := t, lastSyncStatus := "failed"
        lastSyncError := err.text, directionLast := direction.text }
    return .error err
  | .ok () =>
    -- both checksums are those of the side that was copied
    let checksum := direction.pick sourceChecksum targetChecksum
    let t ← now
    let _ ← upsertSyncObject
      { syncID := syncCfg.id, sourceVaultID := syncCfg.source, targetVaultID := targetID
        secretName := secretName, sourceChecksum := checksum, targetChecksum := checksum
        lastSyncTime := t, lastSyncStatus := "success", directionLast := direction.text }
    return .ok ()

/-- Syncs a secret bidirectionally. -/
def syncSecretBidirectional (e : Engine) (syncCfg : SyncConfig) (targetID secretName : String)
    (sourceBackend targetBackend : String) : Sync (Except GoError Unit) := do
  match ← getSecret sourceBackend secretName with
  | .error err => return .error (.wrap "failed to get secret from source: " err)
  | .ok sourceSecret =>
    match ← getSecret targetBackend secretName with
    | .error _ => syncSecretUnidirectional e syncCfg targetID secretName sourceBackend
    | .ok targetSecret =>
      let sourceChecksum := hashString sourceSecret.value
      let targetChecksum := hashString targetSecret.value
      if sourceChecksum = targetChecksum then
        let t ← now
        let _ ← upsertSyncObject
          { syncID := syncCfg.id, sourceVaultID := syncCfg.source, targetVaultID := targetID
            secretName := secretName, sourceChecksum := sourceChecksum
            targetChecksum := targetChecksum, lastSyncTime := t, lastSyncStatus := "in_sync"
            directionLast := "none" }
        return .ok ()
      else
        match ← getSyncObject (syncKey syncCfg targetID secretName) with
        | .error err => return .error (.wrap "failed to get sync object: " err)
        | .ok existingObj =>
          applyDirection syncCfg targetID secretName sourceBackend targetBackend sourceSecret.value
            targetSecret.value (chooseDirection existingObj)

end VaultsSyncer
