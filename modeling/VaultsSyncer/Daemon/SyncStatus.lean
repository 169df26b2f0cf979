import Mathlib.Data.Finset.Dedup
import Mathlib.Data.Finset.Order
import VaultsSyncer.Storage.RowOrder
import VaultsSyncer.Sync.SecretAudit

/-! The status of a sync (`GetSyncStatus` in `sync/runner.go`), and in which order it shows the runs.
    `created_at` is a whole second and nothing else orders the rows, so the newest runs come first
    exactly if they were recorded in different seconds (`newest_first_iff`). -/

namespace VaultsSyncer

open Schemes Schemes.Prog
open OrderBy (Ordered Descending Decreasing)

/-! ### `GetSyncStatus` -/

/-- The objects among what is returned. -/
def StoreResult.syncObjects : StoreResult → List SyncObject
  | .objects objs _ => objs
  | _ => []

/-- The runs among what is returned. -/
def StoreResult.syncRuns : StoreResult → List SyncRun
  | .runs rows _ => rows
  | _ => []

/-- What `GetSyncStatus` puts in its map. -/
def syncStatus (syncID : String) (runs : List SyncRun) (syncObjects : List SyncObject)
    (nextRun : Option ℤ) : SyncStatus :=
  let successCount := syncObjects.countP fun obj => obj.Synced
  { syncID := syncID, lastRun := runs.head?, totalObjects := syncObjects.length
    syncedObjects := successCount, failedObjects := syncObjects.length - successCount
    recentRuns := runs, nextRun := nextRun }

/-- Returns the status of a sync; `nextRun` is what `GetNextRun` finds. -/
def Runner.getSyncStatus (dbType : DBType) (syncID : String) (nextRun : Option ℤ) :
    Prog StoreCall StoreCall.Ans (Except DriverError SyncStatus) := do
  let runs ← SyncObjectStore.getSyncRuns dbType syncID 10
  match runs.error with
  | some err => return .error err
  | none =>
    let objs ← SyncObjectStore.getSyncObjectsBySync syncID
    match objs.error with
    | some err => return .error err
    | none => return .ok (syncStatus syncID runs.syncRuns objs.syncObjects nextRun)

theorem lastRun_of_ok {o : RowOrder} {dbType : DBType}
    (hdb : dbType = DBType.sqlite ∨ dbType = DBType.postgres ∨ dbType = DBType.mssql) {syncID : String}
    {nextRun : Option ℤ} {clock : Stream' ℤ} {db : SyncDatabase} {status : SyncStatus}
    (h : ((Runner.getSyncStatus dbType syncID nextRun).run (serveOrdered o dbType) (clock, db)).1 =
      .ok status) : status.lastRun = ((o.runs (db.recordedRuns syncID)).take 10).head? := by
  rw [Runner.getSyncStatus, run_bind, run_ordered_getSyncRuns hdb] at h
  simp only [StoreResult.error] at h
  rw [run_bind] at h
  split at h
  · cases h
  · rw [← Except.ok.inj h]
    rfl

/-- The sync database of a world. -/
def World.database (w : World) : SyncDatabase where
  syncObjects := w.syncObjects
  syncsRun := w.syncsRun

section Sqlite

variable (syncID : String) (nextRun : Option ℤ) (clock : Stream' ℤ)

theorem run_getSyncStatus (o : RowOrder) (db : SyncDatabase) :
    ((Runner.getSyncStatus DBType.sqlite syncID nextRun).run (serveOrdered o DBType.sqlite)
      (clock, db)).1 = .ok (syncStatus syncID ((o.runs (db.recordedRuns syncID)).take 10)
        ((o.objects (db.storedObjects syncID)).map SyncObjectRow.toSyncObject) nextRun) := by
  rw [Runner.getSyncStatus, run_bind, run_ordered_getSyncRuns (.inl rfl)]
  simp only [StoreResult.error]
  rw [run_bind, run_ordered_getSyncObjectsBySync]
  rfl

/-- The status of a world without faults is what the runner finds on sqlite, with the rows in the order
    of a merge sort. -/
theorem run_getSyncStatus_mergeSorted (w : World) :
    ((Runner.getSyncStatus DBType.sqlite syncID nextRun).run (serveOrdered .mergeSorted DBType.sqlite)
      (clock, w.database)).1.toOption = (getSyncStatus {} {} nextRun syncID w).toOption := by
  rw [run_getSyncStatus]
  rfl

/-- And in whatever order the rows come, it counts as many failures. -/
theorem run_getSyncStatus_failed (o : RowOrder) (w : World) : ∃ status,
    ((Runner.getSyncStatus DBType.sqlite syncID nextRun).run (serveOrdered o DBType.sqlite)
      (clock, w.database)).1 = .ok status ∧
      status.failedObjects = (reportedFailed w syncID).length := by
  refine ⟨_, run_getSyncStatus syncID nextRun clock o w.database, ?_⟩
  have hperm : ((o.objects (w.database.storedObjects syncID)).map SyncObjectRow.toSyncObject).Perm
      (getSyncObjectsBySync w syncID) :=
    (((o.objects_ordered _).perm.trans (List.mergeSort_perm _ _).symm)).map _
  have hstatus : getSyncStatus {} {} nextRun syncID w = .ok _ := rfl
  rw [← failedObjects_eq hstatus]
  simp only [syncStatus, hperm.length_eq, hperm.countP_eq]

end Sqlite

/-! ### Recording runs -/

/-- A call of `RecordSyncRun`, and the second in which the database runs its statement. -/
structure RunRecord where
  syncID : String
  status : String
  totalSynced : ℤ
  totalFailed : ℤ
  durationMs : ℤ
  errorMsg : String
  time : ℤ

/-- The database after a call of `RecordSyncRun`. -/
def recordRun (dbType : DBType) (db : SyncDatabase) (r : RunRecord) : SyncDatabase :=
  ((SyncObjectStore.recordSyncRun r.syncID r.status r.totalSynced r.totalFailed r.durationMs
    r.errorMsg).run (serveOn dbType) (Stream'.const r.time, db)).2.2

/-- After calls of `RecordSyncRun`, one after another. -/
def recordRuns (dbType : DBType) (calls : List RunRecord) : SyncDatabase :=
  calls.foldl (recordRun dbType) {}

theorem recordRuns_concat (dbType : DBType) (calls : List RunRecord) (r : RunRecord) :
    recordRuns dbType (calls ++ [r]) = recordRun dbType (recordRuns dbType calls) r :=
  List.foldl_concat ..

/-- The row of a call. -/
def RunRecord.row (r : RunRecord) (id : ℕ) : SyncRun :=
  ⟨id, r.syncID, r.status, r.totalSynced, r.totalFailed, r.durationMs, r.errorMsg, r.time⟩

/-- A backend that takes the statement adds the row, and one that does not adds none. -/
theorem syncsRun_recordRun (dbType : DBType) (db : SyncDatabase) (r : RunRecord) :
    (recordRun dbType db r).syncsRun =
      if dbType ≠ DBType.postgres ∧ dbType ≠ DBType.mssql then
        db.syncsRun ++ [r.row (db.syncsRun.length + 1)]
      else db.syncsRun := by
  obtain ⟨-, -, -, -, -, hmarks⟩ := SyncObjectStore.texts_marks
  rw [recordRun, SyncObjectStore.recordSyncRun, run_bind]
  split_ifs with htakes
  · rw [run_exec_taken ((hmarks.takes_iff dbType).mpr htakes)]
    rfl
  · rw [run_exec_rejected (mt (hmarks.takes_iff dbType).mp htakes)]
    rfl

/-- The rows are in the order of their ids and of their times, and the last ones carry the greatest. -/
structure RunsInOrder (db : SyncDatabase) (time : ℤ) : Prop where
  ids : db.syncsRun.Pairwise fun r r' => r.id < r'.id
  ids_le : ∀ r ∈ db.syncsRun, r.id ≤ db.syncsRun.length
  times : db.syncsRun.Pairwise fun r r' => r.createdAt ≤ r'.createdAt
  times_le : ∀ r ∈ db.syncsRun, r.createdAt ≤ time

theorem RunsInOrder.mono {db : SyncDatabase} {time time' : ℤ} (h : RunsInOrder db time)
    (hle : time ≤ time') : RunsInOrder db time' :=
  ⟨h.ids, h.ids_le, h.times, fun a ha => (h.times_le a ha).trans hle⟩

theorem RunsInOrder.step {dbType : DBType} {db : SyncDatabase} {time : ℤ} (h : RunsInOrder db time)
    {r : RunRecord} (hr : time ≤ r.time) : RunsInOrder (recordRun dbType db r) r.time := by
  have hrow := syncsRun_recordRun dbType db r
  split_ifs at hrow
  · constructor <;> rw [hrow]
    · refine List.pairwise_append.mpr ⟨h.ids, by simp, fun a ha b hb => ?_⟩
      obtain rfl := List.mem_singleton.mp hb
      exact Nat.lt_succ_of_le (h.ids_le a ha)
    · intro a ha
      rw [List.length_append, List.length_singleton]
      rcases List.mem_append.mp ha with ha | ha
      · exact (h.ids_le a ha).trans (Nat.le_succ _)
      · obtain rfl := List.mem_singleton.mp ha
        exact le_rfl
    · refine List.pairwise_append.mpr ⟨h.times, by simp, fun a ha b hb => ?_⟩
      obtain rfl := List.mem_singleton.mp hb
      exact (h.times_le a ha).trans hr
    · intro a ha
      rcases List.mem_append.mp ha with ha | ha
      · exact (h.times_le a ha).trans hr
      · obtain rfl := List.mem_singleton.mp ha
        exact le_rfl
  · constructor <;> rw [hrow]
    · exact h.ids
    · exact h.ids_le
    · exact h.times
    · exact fun a ha => (h.times_le a ha).trans hr

/-- Times of calls that do not decrease are those of the rows. -/
theorem runsInOrder_recordRuns (dbType : DBType) {calls : List RunRecord}
    (htimes : calls.Pairwise fun r r' => r.time ≤ r'.time) {time : ℤ}
    (hle : ∀ r ∈ calls, r.time ≤ time) : RunsInOrder (recordRuns dbType calls) time := by
  induction calls using List.reverseRecOn generalizing time with
  | nil => exact ⟨by simp [recordRuns], by simp [recordRuns], by simp [recordRuns], by simp [recordRuns]⟩
  | append_singleton calls r ih =>
    obtain ⟨hcalls, -, hlast⟩ := List.pairwise_append.mp htimes
    have hprev : RunsInOrder (recordRuns dbType calls) r.time :=
      ih hcalls fun r' hr' => hlast r' hr' r (by simp)
    rw [recordRuns_concat]
    exact (hprev.step le_rfl).mono (hle r (by simp))

/-! ### The newest runs first -/

/-- Whatever the database does with rows that tie: the runs come back in reverse order of recording, and
    the last run is the one recorded last. -/
structure NewestFirst (dbType : DBType) (db : SyncDatabase) (syncID : String) (limit : ℤ) : Prop where
  runs : ∀ (o : RowOrder) (clock : Stream' ℤ),
    ((SyncObjectStore.getSyncRuns dbType syncID limit).run (serveOrdered o dbType) (clock, db)).1 =
      .runs ((db.recordedRuns syncID).reverse.take (if limit ≤ 0 then 100 else limit).toNat) none
  lastRun : ∀ (o : RowOrder) (clock : Stream' ℤ) (nextRun : Option ℤ) (status : SyncStatus),
    ((Runner.getSyncStatus dbType syncID nextRun).run (serveOrdered o dbType) (clock, db)).1 = .ok status →
      status.lastRun = (db.recordedRuns syncID).getLast?

theorem RunsInOrder.descending {db : SyncDatabase} {time : ℤ} (h : RunsInOrder db time)
    (syncID : String) : Descending SyncRun.createdAt (db.recordedRuns syncID).reverse :=
  List.pairwise_reverse.mpr (h.times.sublist List.filter_sublist)

theorem RunsInOrder.nodup {db : SyncDatabase} {time : ℤ} (h : RunsInOrder db time)
    (syncID : String) : (db.recordedRuns syncID).reverse.Nodup := by
  rw [List.nodup_reverse]
  refine (h.ids.sublist List.filter_sublist).imp fun hlt heq => ?_
  rw [heq] at hlt
  exact lt_irrefl _ hlt

theorem newestFirst_iff {dbType : DBType}
    (hdb : dbType = DBType.sqlite ∨ dbType = DBType.postgres ∨ dbType = DBType.mssql)
    {db : SyncDatabase} {time : ℤ} (h : RunsInOrder db time) (syncID : String) (limit : ℤ) :
    NewestFirst dbType db syncID limit ↔ Decreasing SyncRun.createdAt
      ((db.recordedRuns syncID).reverse.take ((if limit ≤ 0 then 100 else limit).toNat + 1)) := by
  have hdesc := h.descending syncID
  have hrows {o : RowOrder} : Ordered SyncRun.createdAt (db.recordedRuns syncID).reverse
      (o.runs (db.recordedRuns syncID)) := by
    have ho := o.runs_ordered (db.recordedRuns syncID)
    exact ⟨ho.perm.trans (List.reverse_perm _).symm, ho.descending⟩
  constructor
  · intro hnewest
    refine (OrderBy.determined_iff hdesc (h.nodup syncID) _).mp fun p hp => ?_
    have hp' : Ordered SyncRun.createdAt (db.recordedRuns syncID) p :=
      ⟨hp.perm.trans (List.reverse_perm _), hp.descending⟩
    have hruns := hnewest.runs (.answering hp') (Stream'.const 0)
    rw [run_ordered_getSyncRuns hdb] at hruns
    simpa [RowOrder.answering] using hruns
  · intro hdec
    constructor
    · intro o clock
      rw [run_ordered_getSyncRuns hdb, hrows.take_eq hdesc hdec]
    · intro o clock nextRun status hstatus
      have hpos : 1 ≤ (if limit ≤ 0 then 100 else limit).toNat := by split_ifs <;> omega
      have htwo : Decreasing SyncRun.createdAt ((db.recordedRuns syncID).reverse.take (1 + 1)) :=
        hdec.sublist (List.take_sublist_take_left (Nat.succ_le_succ hpos))
      have hfirst := hrows (o := o).take_eq hdesc htwo
      rw [lastRun_of_ok hdb hstatus, List.getLast?_eq_head?_reverse]
      simpa [List.head?_take] using congrArg List.head? hfirst

/-- After any calls of `RecordSyncRun` at times that do not decrease, the newest runs of a sync come
    first exactly if those returned, and the one before them, were recorded in different seconds. -/
theorem newest_first_iff {sqlOpen : String → String → Option GoStd.GoError} {cfg : DBConfig}
    {conn : Connection} (hopen : openDB sqlOpen cfg = .ok conn) {calls : List RunRecord}
    (htimes : calls.Pairwise fun r r' => r.time ≤ r'.time) (syncID : String) (limit : ℤ) :
    NewestFirst cfg.type (recordRuns cfg.type calls) syncID limit ↔ Decreasing SyncRun.createdAt
      (((recordRuns cfg.type calls).recordedRuns syncID).reverse.take
        ((if limit ≤ 0 then 100 else limit).toNat + 1)) := by
  obtain ⟨time, htime⟩ := (calls.map RunRecord.time).toFinset.exists_le
  have hle : ∀ r ∈ calls, r.time ≤ time := fun r hr =>
    htime r.time (List.mem_toFinset.mpr (List.mem_map_of_mem hr))
  exact newestFirst_iff (openDB_type hopen) (runsInOrder_recordRuns cfg.type htimes hle) syncID limit

/-- A run that fails after one that succeeded. -/
def failureAt (time : ℤ) : List RunRecord :=
  [⟨"s", "success", 1, 0, 20, "", 5⟩, ⟨"s", "failed", 0, 1, 20, "", time⟩]

theorem recordedRuns_failureAt (time : ℤ) :
    (recordRuns DBType.sqlite (failureAt time)).recordedRuns "s" =
      [⟨1, "s", "success", 1, 0, 20, "", 5⟩, ⟨2, "s", "failed", 0, 1, 20, "", time⟩] := by
  have htakes : DBType.sqlite ≠ DBType.postgres ∧ DBType.sqlite ≠ DBType.mssql := by decide
  have hcalls : failureAt time = [] ++ [⟨"s", "success", 1, 0, 20, "", 5⟩] ++
      [⟨"s", "failed", 0, 1, 20, "", time⟩] := rfl
  have hempty : (recordRuns DBType.sqlite []).syncsRun = [] := rfl
  rw [hcalls, SyncDatabase.recordedRuns, recordRuns_concat, syncsRun_recordRun, if_pos htakes,
    recordRuns_concat, syncsRun_recordRun, if_pos htakes, hempty]
  simp [RunRecord.row]

theorem newest_first_iff_apart :
    NewestFirst DBType.sqlite (recordRuns DBType.sqlite (failureAt 6)) "s" 0 := by
  have hopen : openDB (fun _ _ => none) { type := DBType.sqlite } =
      .ok ⟨"sqlite3", "sync.db?_journal_mode=WAL&_foreign_keys=on"⟩ := by decide
  have htimes : (failureAt 6).Pairwise fun r r' => r.time ≤ r'.time := by simp [failureAt]
  refine (newest_first_iff hopen htimes "s" 0).mpr ?_
  rw [recordedRuns_failureAt]
  decide

/-- Both runs in one second. -/
theorem last_run_not_last :
    ¬NewestFirst DBType.sqlite (recordRuns DBType.sqlite (failureAt 5)) "s" 0 := by
  have htimes : (failureAt 5).Pairwise fun r r' => r.time ≤ r'.time := by simp [failureAt]
  have hle : ∀ r ∈ failureAt 5, r.time ≤ 5 := by simp [failureAt]
  have horder := runsInOrder_recordRuns DBType.sqlite htimes hle
  rw [newestFirst_iff (.inl rfl) horder, recordedRuns_failureAt]
  decide

end VaultsSyncer
