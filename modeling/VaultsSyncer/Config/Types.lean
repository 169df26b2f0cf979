import Mathlib.Data.Rat.Defs

/-! The configuration records the sync engine reads (`config/types.go`), with Go's zero values as
    defaults. `RetryPolicy.Multiplier`, a `float64` in the source, is a rational; durations are in
    milliseconds. -/

namespace VaultsSyncer

/-- Glob patterns for secret names. -/
structure FilterConfig where
  patterns : List String := []
  exclude : List String := []

structure Transform where
  field : String
  type : String
  value : String := ""

structure RetryPolicy where
  maxRetries : ℤ := 0
  initialBackoff : ℤ := 0
  maxBackoff : ℤ := 0
  multiplier : ℚ := 0

structure SyncConfig where
  id : String
  source : String
  targets : List String
  syncType : String := ""
  schedule : String := ""
  filter : FilterConfig := {}
  transforms : List Transform := []
  retryPolicy : RetryPolicy := {}
  concurrentWorkers : ℤ := 0
  enabled : Option Bool := none

/-- Returns true when the field is omitted. -/
def SyncConfig.isEnabled (s : SyncConfig) : Bool := s.enabled.getD true

/-- One secret of one sync, as the sync database keeps it. -/
structure SyncObject where
  id : ℕ := 0
  syncID : String
  sourceVaultID : String
  targetVaultID : String
  secretName : String
  externalID : String := ""
  sourceChecksum : String := ""
  targetChecksum : String := ""
  lastSyncTime : ℤ := 0
  lastSyncStatus : String := ""
  lastSyncError : String := ""
  syncCount : ℤ := 0
  failureCount : ℤ := 0
  directionLast : String := ""
  deriving DecidableEq

end VaultsSyncer
