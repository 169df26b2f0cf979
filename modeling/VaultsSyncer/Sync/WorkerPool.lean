import VaultsSyncer.Schemes.PoolProtocol
import VaultsSyncer.Sync.Interleavings

/-! The goroutines of the two concurrent sync functions, over every schedule: the semaphore, the two
    channels, the wait group and the collector work together as `Schemes.Pool.Protocol` says. -/

namespace VaultsSyncer

open GoStd Schemes Schemes.Prog

variable {κ : Type}

/-- The result channel of the unidirectional sync has a place for each goroutine. -/
theorem length_unidirectionalJobs (syncCfg : SyncConfig) (secrets : List String) :
    (unidirectionalJobs syncCfg secrets).length =
      (filterSecrets secrets syncCfg.filter).length * syncCfg.targets.length := by
  simp [unidirectionalJobs, List.length_flatMap]

/-- Every schedule of the goroutines keeps the protocol, and what `run` returns is what the collector
    has counted under some schedule, when the function returns. -/
def KeepsProtocol (jobs : List String → List κ) (task : κ → Sync (Except GoError Unit))
    (workerCount : ℕ) (run : Answer → (κ → Env) → World → SyncResult → World → Prop) : Prop :=
  ∀ (listing : Answer) (env : κ → Env) (w : World), listing.Works →
    let pool := workerPool (jobs listing.names) task workerCount env
    (∀ as s, Pool.follow pool (Pool.init w) as = some s → Pool.Protocol pool w as s) ∧
    ∀ result w', run listing env w result w' → ∃ as s, Pool.follow pool (Pool.init w) as = some s ∧
      s.returned = true ∧ result = ⟨s.success, s.failure⟩ ∧ w' = s.shared

/-- Each state that is reached is reached by a schedule. -/
theorem exists_schedule {jobs : List κ} {task : κ → Sync (Except GoError Unit)} {workerCount : ℕ}
    {env : κ → Env} {w : World} {s : Pool.State Call Call.Ans Env World jobs.length}
    (hs : Pool.Reaches (workerPool jobs task workerCount env) w s) :
    ∃ as, Pool.follow (workerPool jobs task workerCount env) (Pool.init w) as = some s := by
  induction hs with
  | init => exact ⟨[], rfl⟩
  | @step s s' a _ hstep ih =>
    obtain ⟨as, has⟩ := ih
    exact ⟨as ++ [a], by rw [Pool.follow_append, has]; simp [Pool.follow, hstep]⟩

theorem keepsProtocol (jobs : List String → List κ) (task : κ → Sync (Except GoError Unit))
    {workerCount : ℕ} (hworkers : 1 ≤ workerCount) :
    KeepsProtocol jobs task workerCount (ConcurrentRun jobs task workerCount) := by
  intro listing env w hlist
  refine ⟨fun as s hs => Pool.follow_protocol hworkers hs, ?_⟩
  intro result w' hrun
  cases hrun with
  | unlisted h => exact absurd hlist h
  | returned _ hs hr =>
    obtain ⟨as, has⟩ := exists_schedule hs
    exact ⟨as, _, has, hr, rfl, rfl⟩

/-- Two secrets and one worker; the goroutine of the second secret goes first. -/
def secondFirst : List (Pool.Action 2) :=
  [.launch, .launch, .spawnCloser] ++ Pool.serve 1 7 ++ Pool.serve 0 7 ++
    [.close, .receive, .receive, .finish]

end VaultsSyncer
