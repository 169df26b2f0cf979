import VaultsSyncer.Sync.SecretAudit

/-! The counters of a record. The schema has a column for the attempts made and one for those that
    failed, and the engine writes each record afresh without them, so both stay at zero
    (`counters_iff`). -/

namespace VaultsSyncer

open GoStd Schemes Schemes.Prog

/-- The record that a call writes, as its goroutine sees it. -/
def saves (op : Call) (env : Env) (w : World) : Option SyncObject := op.saved env.head w

/-- Runs of `ExecuteSync` one after another on a fresh table, of any syncs and engines, with the records
    that their attempts have written. What else happens leaves the table alone. -/
inductive SyncHistory : List SyncObject → World → Prop
  | fresh {w : World} (h : w.syncObjects.rows = []) : SyncHistory [] w
  | elsewhere {log : List SyncObject} {w w' : World} (h : SyncHistory log w)
      (hsame : w'.syncObjects = w.syncObjects) : SyncHistory log w'
  | run {log log' : List SyncObject} {w : World} {e : Engine} {syncCfg : SyncConfig} {a : RunAnswers}
      {env : String × String → Env} {n : ℕ} {pool : Pool.Setup Call Call.Ans Env World n}
      {pair : Fin n → String × String} {s : Pool.State Call Call.Ans Env World n}
      (h : SyncHistory log w) (hg : Goroutines e syncCfg a env pool pair)
      (hs : Pool.Logged pool w saves log' s) (hr : s.returned = true) :
      SyncHistory (log ++ log') (recordSyncRun a syncCfg.id (runStatus ⟨s.success, s.failure⟩)
        ⟨s.success, s.failure⟩ "" s.shared)

/-- Every run of `ExecuteSync` continues a history. -/
theorem SyncHistory.executeSync {log : List SyncObject} {w w' : World} (h : SyncHistory log w)
    {e : Engine} {syncCfg : SyncConfig} {a : RunAnswers} {env : String × String → Env}
    {r : Except GoError Unit} (hrun : ExecuteSync e syncCfg a env w r w') :
    ∃ log', SyncHistory (log ++ log') w' := by
  rcases hrun.goroutines with hidle | ⟨n, pool, pair, s, hg, hs, hr, rfl⟩
  · exact ⟨[], by simpa using h.elsewhere hidle.2⟩
  · obtain ⟨log', hlog⟩ := hs.logged saves
    exact ⟨log', h.run hg hlog hr⟩

/-- Each row counts the attempts that have written it, and those of them that were recorded as
    failed. -/
def Counted (log : List SyncObject) (w : World) : Prop :=
  ∀ k r, w.syncObjects.lookup k = some r →
    r.syncCount = log.countP (fun o => o.key = k) ∧
    r.failureCount = log.countP fun o => o.key = k ∧ o.lastSyncStatus = "failed"

/-! ### What the engine writes -/

/-- The call writes no count. -/
def Call.Uncounted : Call → Prop
  | .updateSyncObject o _ => o.syncCount = 0 ∧ o.failureCount = 0
  | .insertSyncObject o _ => o.syncCount = 0 ∧ o.failureCount = 0
  | _ => True

/-- Whatever the others do. -/
def uncountedContract : Contract Call Env World where
  rely := fun _ _ => True
  given := fun _ _ _ => True
  call := fun op _ _ => op.Uncounted
  refl := fun _ => trivial
  trans := fun _ _ => trivial

section Uncounted

variable {env : Env} {s : World}

theorem uncounted_quiet (op : Call) (env : Env) (s : World) (h : op.Quiet) :
    uncountedContract.call op env s := by
  cases op with
  | updateSyncObject | insertSyncObject => exact h.elim
  | _ => trivial

theorem uncounted_record {o : ℤ → SyncObject} {res : Except GoError Unit}
    (ho : ∀ t, (o t).syncCount = 0 ∧ (o t).failureCount = 0) :
    (record o res).Keeps handle uncountedContract (fun _ _ _ => True) env s :=
  keeps_record_free uncounted_quiet (fun t _ _ _ => ho t) fun t _ _ _ => ho t

theorem uncounted_copy {policy : RetryPolicy} {vault name : String} {value : Bytes}
    {failed : GoError → ℤ → SyncObject} {done : ℤ → SyncObject}
    (hfailed : ∀ err t, (failed err t).syncCount = 0 ∧ (failed err t).failureCount = 0)
    (hdone : ∀ t, (done t).syncCount = 0 ∧ (done t).failureCount = 0) :
    (copyAndRecord policy vault name value failed done).Keeps handle uncountedContract
      (fun _ _ _ => True) env s :=
  keeps_copyAndRecord uncounted_quiet (fun _ _ _ _ => trivial)
    (fun _ _ _ _ _ _ => uncounted_record hdone) fun err _ _ _ => uncounted_record (hfailed err)

variable (e : Engine) (syncCfg : SyncConfig) (targetID secretName source target : String)

theorem uncounted_unidirectional :
    (syncSecretUnidirectional e syncCfg targetID secretName source).KeepsNow handle uncountedContract
      (fun _ _ _ => True) env s :=
  keepsNow_unidirectional uncounted_quiet (fun _ _ _ => keeps_ret fun _ _ => trivial)
    fun _ _ _ => uncounted_copy (fun _ _ => ⟨rfl, rfl⟩) fun _ => ⟨rfl, rfl⟩

theorem uncounted_bidirectional :
    (syncSecretBidirectional e syncCfg targetID secretName source target).KeepsNow handle
      uncountedContract (fun _ _ _ => True) env s := by
  refine keepsNow_bidirectional uncounted_quiet (fun _ _ _ => keeps_ret fun _ _ => trivial)
    (fun _ _ _ _ _ _ => keeps_iff.mpr fun _ _ => uncounted_unidirectional ..)
    (fun _ _ _ _ _ => uncounted_record fun _ => ⟨rfl, rfl⟩)
    (fun _ _ _ _ _ _ _ _ _ _ => keeps_ret fun _ _ => trivial) ?_
  exact fun _ _ _ _ _ _ _ _ => uncounted_copy (fun _ _ => ⟨rfl, rfl⟩) fun _ => ⟨rfl, rfl⟩

theorem uncounted_attempt (job : String × String) :
    (worker (attempt e syncCfg job)).KeepsNow handle uncountedContract (fun _ _ _ => True) env s := by
  have hattempt : (attempt e syncCfg job).KeepsNow handle uncountedContract (fun _ _ _ => True) env
      s := by
    unfold attempt
    split_ifs
    · exact uncounted_bidirectional e syncCfg job.2 job.1 syncCfg.source job.2
    · exact uncounted_unidirectional e syncCfg job.2 job.1 syncCfg.source
  exact KeepsNow.bind (hattempt.mono fun _ _ _ _ => keeps_ret fun _ _ => trivial)

end Uncounted

section Runs

variable {e : Engine} {syncCfg : SyncConfig} {a : RunAnswers} {env : String × String → Env} {n : ℕ}
  {pool : Pool.Setup Call Call.Ans Env World n} {pair : Fin n → String × String} {w : World}

theorem Goroutines.uncounted (h : Goroutines e syncCfg a env pool pair)
    {s : Pool.State Call Call.Ans Env World n} (hs : Pool.Reaches pool w s) {i : Fin n} {op : Call}
    {k : op.Ans → Sync Bool} {e' : Env} (hp : s.phase i = .running (.call op k) e') :
    op.Uncounted := by
  have hframes : Pool.Frames pool w (fun _ _ => True) (fun _ => uncountedContract)
      (fun _ _ => True) (fun _ _ _ => True) :=
    { init := fun _ => trivial
      starts := fun s _ _ _ i _ _ _ => by
        rw [h.handler, h.task]
        exact uncounted_attempt ..
      given := fun _ _ _ _ _ _ _ _ _ _ => trivial
      frame := fun _ _ _ _ _ _ _ _ _ _ _ _ _ => ⟨id, trivial, fun _ => id⟩ }
  exact hframes.at_call (hs.along fun _ _ _ => trivial) trivial i op k e' rfl hp

/-! ### Histories -/

/-- The counters are at zero, and the rows are those of the records in the log. -/
structure Uncounted (log : List SyncObject) (w : World) : Prop where
  zero : ∀ k r, w.syncObjects.lookup k = some r → r.syncCount = 0 ∧ r.failureCount = 0
  rows : ∀ k, w.syncObjects.lookup k = none ↔ ∀ o ∈ log, o.key ≠ k

theorem Uncounted.of_same {log : List SyncObject} {w w' : World} (h : Uncounted log w)
    (hsame : w'.syncObjects = w.syncObjects) : Uncounted log w' := by
  constructor
  · rw [hsame]
    exact h.zero
  · rw [hsame]
    exact h.rows

theorem Uncounted.call {log : List SyncObject} {w : World} (h : Uncounted log w) {op : Call}
    (hop : op.Uncounted) (env : Env) :
    Uncounted (log ++ (saves op env w).toList) (handle op (env, w)).2.2 := by
  rcases hsaved : saves op env w with _ | o
  · have hlookup := lookup_of_not_saved hsaved
    constructor
    · intro k r hr
      exact h.zero k r (hlookup k ▸ hr)
    · intro k
      rw [hlookup]
      simpa using h.rows k
  · obtain ⟨⟨r, hr, hrec⟩, hothers⟩ := lookup_of_saved hsaved
    have hzero : o.syncCount = 0 ∧ o.failureCount = 0 := by
      cases op with
      | updateSyncObject => exact saved_update hsaved ▸ hop
      | insertSyncObject => exact saved_insert hsaved ▸ hop
      | _ => cases hsaved
    constructor
    · intro k r' hr'
      rcases eq_or_ne k o.key with rfl | hk
      · obtain rfl := Option.some.inj (hr.symm.trans hr')
        exact ⟨(congrArg SyncObject.syncCount hrec).trans hzero.1,
          (congrArg SyncObject.failureCount hrec).trans hzero.2⟩
      · exact h.zero k r' (hothers k hk ▸ hr')
    · intro k
      rcases eq_or_ne k o.key with rfl | hk
      · rw [hr]
        simp
      · rw [hothers k hk, h.rows k]
        simp only [Option.toList_some, List.forall_mem_append, List.forall_mem_singleton]
        exact (and_iff_left (Ne.symm hk)).symm

theorem SyncHistory.uncounted {log : List SyncObject} {w : World} (h : SyncHistory log w) :
    Uncounted log w := by
  induction h with
  | @fresh w h =>
    have hnone : ∀ k, w.syncObjects.lookup k = none := fun k =>
      Table.lookup_eq_none.mpr (by simp [h])
    exact ⟨fun k r hr => by simp [hnone] at hr, fun k => by simp [hnone]⟩
  | elsewhere _ hsame ih => exact ih.of_same hsame
  | @run log log' w _ _ _ _ _ _ _ _ _ hg hs _ ih =>
    have hinv : Uncounted (log ++ log') _ := hs.invariant
      (I := fun log' w' => Uncounted (log ++ log') w') (by simpa using ih) ?_
    · exact hinv.of_same (recordSyncRun_idle ..).2
    · intro s hs i op k e' log₁ hp hI
      rw [hg.handler, ← List.append_assoc]
      exact hI.call (hg.uncounted hs hp) e'

/-- A row has been written by an attempt. -/
theorem SyncHistory.written {log : List SyncObject} {w : World} (h : SyncHistory log w) {k : SyncKey}
    {r : SyncObjectRow} (hr : w.syncObjects.lookup k = some r) : ∃ o ∈ log, o.key = k := by
  by_contra hno
  have hnone := (h.uncounted.rows k).mpr fun o ho hk => hno ⟨o, ho, hk⟩
  exact absurd (hr.symm.trans hnone) (by simp)

/-- No row counts the attempts that have written it. -/
theorem SyncHistory.miscounts {log : List SyncObject} {w : World} (h : SyncHistory log w) {k : SyncKey}
    {r : SyncObjectRow} (hr : w.syncObjects.lookup k = some r) :
    r.syncCount ≠ log.countP fun o => o.key = k := by
  obtain ⟨o, ho, hk⟩ := h.written hr
  have hpos : 0 < log.countP fun o => o.key = k := List.countP_pos_iff.mpr ⟨o, ho, by simpa using hk⟩
  rw [(h.uncounted.zero k r hr).1]
  omega

end Runs

/-- The counters are right as long as no attempt has written a record, and never after. -/
theorem counters_iff {log : List SyncObject} {w : World} (h : SyncHistory log w) :
    Counted log w ↔ log = [] := by
  constructor
  · intro hcounted
    by_contra hne
    obtain ⟨o, ho⟩ := List.exists_mem_of_ne_nil log hne
    have hrow : w.syncObjects.lookup o.key ≠ none := fun hnone =>
      (h.uncounted.rows o.key).mp hnone o ho rfl
    obtain ⟨r, hr⟩ := Option.ne_none_iff_exists'.mp hrow
    exact h.miscounts hr (hcounted o.key r hr).1
  · rintro rfl k r hr
    obtain ⟨o, ho, -⟩ := h.written hr
    cases ho

/-- A history of one run: the secret is copied, and its record is there. -/
theorem push_history : ∃ log w r, SyncHistory log w ∧
    w.syncObjects.lookup (syncKey pushSync "b" "k") = some r := by
  obtain ⟨s, hs, hr⟩ := push_succeeds
  obtain ⟨hr, hstatus⟩ := Prod.mk.inj hr
  obtain ⟨log, hlog⟩ := hs.logged saves
  obtain ⟨r, hrow, -⟩ := Option.map_eq_some_iff.mp hstatus
  have hfresh : SyncHistory [] (pairWorld (some (utf8 "v")) none) := .fresh rfl
  exact ⟨_, _, r, hfresh.run (push_goroutines noFaults) hlog hr, by rw [(recordSyncRun_idle ..).2, hrow]⟩

theorem counters_iff_push : ∃ log w, SyncHistory log w ∧ log ≠ [] ∧ (Counted log w ↔ log = []) := by
  obtain ⟨log, w, r, h, hr⟩ := push_history
  obtain ⟨o, ho, -⟩ := h.written hr
  exact ⟨log, w, h, List.ne_nil_of_mem ho, counters_iff h⟩

/-- After it the row says that there was no attempt. -/
theorem attempt_not_counted : ∃ log w, SyncHistory log w ∧ ¬Counted log w := by
  obtain ⟨log, w, r, h, hr⟩ := push_history
  exact ⟨log, w, h, fun hcounted => h.miscounts hr (hcounted _ r hr).1⟩

end VaultsSyncer
