import VaultsSyncer.Schemes.Isolation
import VaultsSyncer.Sync.Agreement

/-! `executeSyncUnidirectionalConcurrent`, `executeSyncBidirectionalConcurrent` and `ExecuteSync`: the
    functions that list the secrets of the source, filter them and hand one job for each of them to a
    bounded pool of goroutines. What such a run can end in is a relation, because the scheduler is
    free. Jobs of different secrets, or of one secret and different targets, work on different parts
    of the world (`Confined`), so the pool ends as the jobs do one at a time. -/

namespace VaultsSyncer

open GoStd Schemes Schemes.Prog

/-- The results of a sync operation. -/
structure SyncResult where
  success : ℕ
  failure : ℕ
  deriving DecidableEq

/-- The body of a worker: whether the sync of its secret returned no error. -/
def worker (p : Sync (Except GoError Unit)) : Sync Bool := do
  return (← p).isOk

variable {κ : Type}

/-- One goroutine for each job; each has its own answers. -/
def workerPool (jobs : List κ) (task : κ → Sync (Except GoError Unit)) (workerCount : ℕ)
    (env : κ → Env) : Pool.Setup Call Call.Ans Env World jobs.length where
  handler := handle
  task := fun i => worker (task jobs[i])
  env := fun i => env jobs[i]
  workers := workerCount

/-- A run of a concurrent sync: without a listing there is nothing to do, else the jobs of the listed
    secrets go through the pool until the collector returns. -/
inductive ConcurrentRun (jobs : List String → List κ) (task : κ → Sync (Except GoError Unit))
    (workerCount : ℕ) (listing : Answer) (env : κ → Env) (w : World) : SyncResult → World → Prop
  | unlisted (h : ¬listing.Works) : ConcurrentRun jobs task workerCount listing env w ⟨0, 0⟩ w
  | returned {s : Pool.State Call Call.Ans Env World (jobs listing.names).length}
      (h : listing.Works)
      (hs : Pool.Reaches (workerPool (jobs listing.names) task workerCount env) w s)
      (hr : s.returned = true) :
      ConcurrentRun jobs task workerCount listing env w ⟨s.success, s.failure⟩ s.shared

/-- The secret and the target of each goroutine, in the order of the two loops. -/
def unidirectionalJobs (syncCfg : SyncConfig) (secrets : List String) : List (String × String) :=
  (filterSecrets secrets syncCfg.filter).flatMap fun secretName =>
    syncCfg.targets.map fun targetID => (secretName, targetID)

/-- Syncs secrets concurrently in one direction. -/
def executeSyncUnidirectionalConcurrent (e : Engine) (syncCfg : SyncConfig) (sourceBackend : String)
    (workerCount : ℕ) :
    Answer → (String × String → Env) → World → SyncResult → World → Prop :=
  ConcurrentRun (unidirectionalJobs syncCfg)
    (fun job => syncSecretUnidirectional e syncCfg job.2 job.1 sourceBackend) workerCount

/-- Syncs secrets bidirectionally with concurrency; `targetID` is `Targets[0]`. -/
def executeSyncBidirectionalConcurrent (e : Engine) (syncCfg : SyncConfig)
    (targetID sourceBackend targetBackend : String) (workerCount : ℕ) :
    Answer → (String → Env) → World → SyncResult → World → Prop :=
  ConcurrentRun (fun secrets => filterSecrets secrets syncCfg.filter)
    (fun secretName =>
      syncSecretBidirectional e syncCfg targetID secretName sourceBackend targetBackend) workerCount

/-! ### Confined jobs -/

section Confined

variable {β : Type} {F G : Footprint} {ρ : RowView β}

/-- A call within `G` changes no secret that `G` does not write. -/
theorem frame_cell {op : Call} (hop : G.Within op) {v n : String} (hv : ¬G.writes v n) (env : Env)
    (w : World) : (handle op (env, w)).2.2.vaults v n = w.vaults v n := by
  rcases handle_cases op env w with h | ⟨vault, name, value, rfl, h⟩ | ⟨obj, t, rfl, h⟩ |
    ⟨obj, t, rfl, hl, h⟩ | ⟨run, rfl, h⟩
  · rw [h]
  · rw [h]
    refine w.setVault_of_ne value ?_
    by_contra hsame
    simp only [not_or, not_not] at hsame
    obtain ⟨rfl, rfl⟩ := hsame
    exact hv hop
  · rw [h]
    rfl
  · rw [h]
  · exact absurd hop id

/-- A call within `G` changes no record that `G` does not use. -/
theorem frame_row {op : Call} (hop : G.Within op) {k : SyncKey} (hk : ¬G.keys k) (env : Env)
    (w : World) : (handle op (env, w)).2.2.syncObjects.lookup k = w.syncObjects.lookup k := by
  rcases handle_cases op env w with h | ⟨vault, name, value, rfl, h⟩ | ⟨obj, t, rfl, h⟩ |
    ⟨obj, t, rfl, hl, h⟩ | ⟨run, rfl, h⟩
  · rw [h]
  · rw [h]
    rfl
  · have hne : k ≠ obj.key := fun he => hk (he ▸ hop)
    rw [h]
    simp only [World.update, SyncObjectTable.lookup_update, hne, if_false]
  · have hne : k ≠ obj.key := fun he => hk (he ▸ hop)
    rw [h]
    simp only [SyncObjectTable.lookup_insert, hne, if_false]
  · exact absurd hop id

theorem frame_of_disjoint (hcells : ∀ v n, F.reads v n ∨ F.writes v n → ¬G.writes v n)
    (hkeys : ∀ k, F.keys k → ¬G.keys k) {op : Call} (hop : G.Within op) (env : Env) (w : World) :
    Agree F ρ (handle op (env, w)).2.2 w where
  cells := fun v n hF => frame_cell hop (hcells v n hF) env w
  rows := fun k hk => by rw [frame_row hop (hkeys k hk)]

theorem within_worker {p : Sync (Except GoError Unit)} (h : p.AllCalls F.Within) :
    (worker p).AllCalls F.Within := h.bind fun _ => trivial

theorem alike_worker {p : Sync (Except GoError Unit)} (h : Alike Eq p p) :
    Alike Eq (worker p) (worker p) := by
  refine h.bind ?_
  rintro res _ rfl
  exact .ret rfl

theorem exec_worker (p : Sync (Except GoError Unit)) (env : Env) (w : World) :
    exec (worker p) env w = ((exec p env w).1.isOk, (exec p env w).2) := by
  rw [exec, worker, run_bind]; rfl

/-- Each job stays in its footprint, and no two footprints meet where one of them is written. -/
structure Confined (jobs : List κ) (task : κ → Sync (Except GoError Unit))
    (footprint : κ → Footprint) : Prop where
  nodup : jobs.Nodup
  within : ∀ j ∈ jobs, (task j).AllCalls (footprint j).Within
  alike : ∀ j ∈ jobs, Alike Eq (task j) (task j)
  cells : ∀ j ∈ jobs, ∀ j' ∈ jobs, j ≠ j' → ∀ v n,
    (footprint j).reads v n ∨ (footprint j).writes v n → ¬(footprint j').writes v n
  keys : ∀ j ∈ jobs, ∀ j' ∈ jobs, j ≠ j' → ∀ k, (footprint j).keys k → ¬(footprint j').keys k

variable {jobs : List κ} {task : κ → Sync (Except GoError Unit)} {footprint : κ → Footprint}

/-- Confined jobs are isolated, also from what the clocks of another run show. -/
theorem Confined.isolated (h : Confined jobs task footprint) (ρ : RowView β) (workerCount : ℕ)
    {env env' : κ → Env} (henv : ∀ j, SameFaults (env j) (env' j)) :
    Pool.Isolated (workerPool jobs task workerCount env) (fun i => (footprint jobs[i]).Within)
      (fun i => Agree (footprint jobs[i]) ρ) SameCall SameAnswer SameFaults
      (fun i => (worker (task jobs[i]), env' jobs[i])) where
  regions := by
    refine ⟨fun i => agree_equivalence _ ρ, fun i i' op env w hne hop => ?_⟩
    have hjobs : jobs[i] ≠ jobs[i'] := fun heq =>
      hne (Fin.ext ((List.Nodup.getElem_inj_iff h.nodup).mp heq))
    exact frame_of_disjoint (h.cells _ (List.getElem_mem _) _ (List.getElem_mem _) hjobs)
      (h.keys _ (List.getElem_mem _) _ (List.getElem_mem _) hjobs) hop env w
  owns := fun i => within_worker (h.within _ (List.getElem_mem _))
  jobOwns := fun i => within_worker (h.within _ (List.getElem_mem _))
  respects := fun i => handle_respects _ ρ
  sim := fun i => alike_worker (h.alike _ (List.getElem_mem _))
  envs := fun i => henv _

variable {workerCount : ℕ} {env : κ → Env} {w₀ : World}
  {s : Pool.State Call Call.Ans Env World jobs.length}

/-- When the pool has returned, each goroutine has sent the result its job has when it runs alone, and
    its part of the world is as the job alone leaves it. -/
theorem Confined.finished (h : Confined jobs task footprint) (ρ : RowView β)
    (hs : Pool.Reaches (workerPool jobs task workerCount env) w₀ s) (hr : s.returned = true)
    (i : Fin jobs.length) :
    s.phase i = .finished (exec (task jobs[i]) (env jobs[i]) w₀).1.isOk ∧
      Agree (footprint jobs[i]) ρ s.shared (exec (task jobs[i]) (env jobs[i]) w₀).2.2 := by
  have hsame : ∀ j, SameFaults (env j) (env j) := fun j k => rfl
  have hiso := h.isolated ρ workerCount hsame
  obtain ⟨ok, hok⟩ := hs.inv.all_finished hr i
  obtain ⟨hres, hagree⟩ := hs.finished hiso
    (fun i => (agree_equivalence (footprint jobs[i]) ρ).refl w₀) hok
  have halone : Pool.solo (workerPool jobs task workerCount env)
      (fun i => (worker (task jobs[i]), env jobs[i])) i w₀ =
      ((exec (task jobs[i]) (env jobs[i]) w₀).1.isOk, (exec (task jobs[i]) (env jobs[i]) w₀).2) :=
    exec_worker _ _ _
  rw [halone] at hres hagree
  exact ⟨hok.trans (congrArg Pool.Phase.finished hres), hagree⟩

theorem Confined.as_alone (h : Confined jobs task footprint) (ρ : RowView β)
    (hs : Pool.Reaches (workerPool jobs task workerCount env) w₀ s) (hr : s.returned = true)
    {j : κ} (hj : j ∈ jobs) : Agree (footprint j) ρ s.shared (exec (task j) (env j) w₀).2.2 := by
  obtain ⟨i, hi, rfl⟩ := List.getElem_of_mem hj
  exact (h.finished ρ hs hr ⟨i, hi⟩).2

/-- The jobs one after another, in the order of the list. -/
def oneByOne (jobs : List κ) (task : κ → Sync (Except GoError Unit)) (env : κ → Env) (w : World) :
    World :=
  jobs.foldl (fun w j => (exec (task j) (env j) w).2.2) w

theorem sequentially_eq_oneByOne (jobs : List κ) (task : κ → Sync (Except GoError Unit))
    (env : κ → Env) (w : World) :
    Pool.sequentially handle ((List.finRange jobs.length).map fun i =>
      (worker (task jobs[i]), env jobs[i])) w = oneByOne jobs task env w := by
  have hjobs : (List.finRange jobs.length).map (fun i => (worker (task jobs[i]), env jobs[i])) =
      jobs.map fun j => (worker (task j), env j) := by
    conv_rhs => rw [← List.map_getElem_finRange jobs, List.map_map]
    rfl
  rw [hjobs, Pool.sequentially, List.foldl_map, oneByOne]
  congr 1
  funext w j
  exact congrArg (·.2.2) (exec_worker (task j) (env j) w)

/-- What every call of the jobs keeps holds after a run of the pool, and after the jobs one by one. -/
theorem Confined.invariant (h : Confined jobs task footprint)
    (hs : Pool.Reaches (workerPool jobs task workerCount env) w₀ s) {I : World → Prop}
    (hI : ∀ j ∈ jobs, ∀ op env' w, (footprint j).Within op → I w → I (handle op (env', w)).2.2)
    (h0 : I w₀) (env' : κ → Env) : I s.shared ∧ I (oneByOne jobs task env' w₀) := by
  constructor
  · have hown : ∀ i, ((workerPool jobs task workerCount env).task i).AllCalls
        (footprint jobs[i]).Within := fun i => within_worker (h.within _ (List.getElem_mem _))
    exact hs.shared_invariant hown (I := I) (fun i => hI _ (List.getElem_mem _)) h0
  · have hall : ∀ j ∈ jobs, ∀ w, I w → I (exec (task j) (env' j) w).2.2 := fun j hj w hw =>
      (h.within j hj).run_preserves handle (I := fun x => I x.2)
        (fun op x hop hx => hI j hj op x.1 x.2 hop hx) hw
    exact List.foldlRecOn jobs _ h0 fun w hw j hj => hall j hj w hw

/-- The pool ends as the jobs do one after another, each in its own part of the world. -/
theorem Confined.as_sequential (h : Confined jobs task footprint) (ρ : RowView β)
    (hs : Pool.Reaches (workerPool jobs task workerCount env) w₀ s) (hr : s.returned = true)
    {env' : κ → Env} (henv : ∀ j, SameFaults (env j) (env' j)) {j : κ} (hj : j ∈ jobs) :
    Agree (footprint j) ρ s.shared (oneByOne jobs task env' w₀) := by
  obtain ⟨i, hi, rfl⟩ := List.getElem_of_mem hj
  obtain ⟨ok, hok⟩ := hs.inv.all_finished hr ⟨i, hi⟩
  have hseq := hs.eq_sequentially (h.isolated ρ workerCount henv) hok
  rwa [show (workerPool jobs task workerCount env).handler = handle from rfl,
    sequentially_eq_oneByOne] at hseq

theorem sum_map_ite_eq_countP (p : κ → Bool) (b : Bool) (jobs : List κ) :
    (jobs.map fun j => if p j = b then 1 else 0).sum = jobs.countP fun j => p j == b := by
  induction jobs with
  | nil => rfl
  | cons j jobs ih =>
    rw [List.map_cons, List.sum_cons, ih, List.countP_cons, add_comm]
    simp

/-- The collector has counted each job once, under its own result. -/
theorem Confined.counts (h : Confined jobs task footprint) (ρ : RowView β)
    (hs : Pool.Reaches (workerPool jobs task workerCount env) w₀ s) (hr : s.returned = true) :
    s.success = jobs.countP (fun j => (exec (task j) (env j) w₀).1.isOk) ∧
      s.failure = jobs.countP (fun j => !(exec (task j) (env j) w₀).1.isOk) ∧
      s.success + s.failure = jobs.length := by
  obtain ⟨hsucc, hfail, htotal⟩ := hs.inv.counted hr
  have hvote : ∀ b, (∑ i, (s.phase i).voted b) =
      (jobs.map fun j => if (exec (task j) (env j) w₀).1.isOk = b then 1 else 0).sum := by
    intro b
    rw [← Fin.sum_univ_fun_getElem]
    refine Finset.sum_congr rfl fun i _ => ?_
    rw [(h.finished ρ hs hr i).1]
    rfl
  refine ⟨?_, ?_, htotal⟩
  · rw [hsucc, hvote, sum_map_ite_eq_countP]
    simp
  · rw [hfail, hvote, sum_map_ite_eq_countP]
    simp

end Confined

end VaultsSyncer
