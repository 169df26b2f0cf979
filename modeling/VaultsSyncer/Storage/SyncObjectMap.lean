import VaultsSyncer.Storage.RowOrder

/-! The objects of the store as a map (`storage/store.go`): after any calls of `UpsertSyncObject` on a new
    SQLite database, each key is found with the fields of its last call, and with the id it got from
    its first (`storedObject_refinesMap`). -/

namespace VaultsSyncer

open Schemes Schemes.Prog
open OrderBy (Ordered)

namespace SyncObjectTable

/-- What an upsert does to the table. -/
def upsert (t : SyncObjectTable) (o : SyncObject) (now created : ℤ) : SyncObjectTable :=
  if h : t.lookup o.key = none then t.insert o now created h else t.update o now

/-- The object under a key, as it is scanned. -/
def object (t : SyncObjectTable) (k : SyncKey) : Option SyncObject :=
  (t.lookup k).map SyncObjectRow.toSyncObject

/-- The id under the key of an upsert: the one the key has, or else a new one. -/
def idFor (t : SyncObjectTable) (k : SyncKey) : ℕ := ((t.object k).map SyncObject.id).getD t.nextID

theorem object_upsert (t : SyncObjectTable) (o : SyncObject) (now created : ℤ) (k : SyncKey) :
    (t.upsert o now created).object k =
      if k = o.key then some { o with id := t.idFor o.key } else t.object k := by
  unfold upsert object
  split_ifs with hnone hk hk
  · rw [lookup_insert, if_pos hk]
    simp [newRow, idFor, object, hnone]
  · rw [lookup_insert, if_neg hk]
  · obtain ⟨r, hr⟩ := Option.ne_none_iff_exists'.mp hnone
    have hkey : r.toSyncObject.key = o.key := lookup_key hr
    simp only [SyncObject.key, SyncKey.mk.injEq] at hkey
    rw [lookup_update, if_pos hk, hr]
    simp [assign, idFor, object, hr, hkey]
  · rw [lookup_update, if_neg hk]

/-- Ids are not shared. -/
theorem object_inj {t : SyncObjectTable} {k k' : SyncKey} {o o' : SyncObject} (h : t.object k = some o)
    (h' : t.object k' = some o') (hid : o.id = o'.id) : k = k' := by
  obtain ⟨r, hr, rfl⟩ := Option.map_eq_some_iff.mp h
  obtain ⟨r', hr', rfl⟩ := Option.map_eq_some_iff.mp h'
  have heq : r = r' :=
    List.inj_on_of_nodup_map t.ids_nodup (Table.lookup_mem hr) (Table.lookup_mem hr') hid
  rw [← lookup_key hr, ← lookup_key hr', heq]

end SyncObjectTable

/-! ### The methods on SQLite -/

section Sqlite

variable {o : RowOrder} {clock : Stream' ℤ} {db : SyncDatabase}

theorem takes_sqlite {text : String} (h : QuestionMarks text) : Takes DBType.sqlite text :=
  (h.takes_iff _).mpr (by decide)

theorem run_upsertSyncObject (db : SyncDatabase) (clock : Stream' ℤ) (obj : SyncObject) :
    ∃ clock', (SyncObjectStore.upsertSyncObject obj).run (serveOn DBType.sqlite) (clock, db) =
      (.err none, clock',
        { db with syncObjects := db.syncObjects.upsert obj (clock.get 0) (clock.get 3) }) := by
  obtain ⟨hupdate, hinsert, -⟩ := SyncObjectStore.texts_marks
  rw [SyncObjectStore.upsertSyncObject, run_bind, run_readNow]
  dsimp only
  rw [run_bind, run_exec_taken (takes_sqlite hupdate)]
  simp only [SyncStmt.exec]
  rw [perform_bind, run_call]
  simp only [serveOn]
  by_cases hnone : db.syncObjects.lookup obj.key = none
  · have hzero : db.syncObjects.affected obj = 0 := SyncObjectTable.affected_eq_zero.mpr hnone
    rw [if_pos hzero, run_bind, run_exec_taken (takes_sqlite hinsert),
      SyncObjectTable.update_of_absent hnone]
    simp only [SyncStmt.exec, SyncObjectTable.upsert, dif_pos hnone]
    exact ⟨_, rfl⟩
  · have hfound : db.syncObjects.affected obj ≠ 0 := mt SyncObjectTable.affected_eq_zero.mp hnone
    rw [if_neg hfound, SyncObjectTable.upsert, dif_neg hnone]
    exact ⟨_, rfl⟩

theorem run_getSyncObject (k : SyncKey) :
    ((SyncObjectStore.getSyncObject k.syncID k.sourceVaultID k.targetVaultID k.secretName).run
      (serveOrdered o DBType.sqlite) (clock, db)).1 = .object (db.syncObjects.object k) none := by
  obtain ⟨-, -, hselect, -⟩ := SyncObjectStore.texts_marks
  rw [SyncObjectStore.getSyncObject, run_bind, run_ordered_taken (takes_sqlite hselect)]
  rfl

theorem run_getSyncObjectsBySync (syncID : String) :
    ((SyncObjectStore.getSyncObjectsBySync syncID).run (serveOrdered o DBType.sqlite) (clock, db)).1 =
      .objects ((o.objects (db.storedObjects syncID)).map SyncObjectRow.toSyncObject) none := by
  obtain ⟨-, -, -, hbySync, -⟩ := SyncObjectStore.texts_marks
  rw [SyncObjectStore.getSyncObjectsBySync, run_bind, run_ordered_taken (takes_sqlite hbySync)]
  rfl

end Sqlite

/-! ### Sequences of upserts -/

/-- The database after a call of `UpsertSyncObject`, with the clock it reads. -/
def upsertInto (db : SyncDatabase) (c : SyncObject × Stream' ℤ) : SyncDatabase :=
  ((SyncObjectStore.upsertSyncObject c.1).run (serveOn DBType.sqlite) (c.2, db)).2.2

/-- After calls of `UpsertSyncObject`, one after another. -/
def upsertAll (calls : List (SyncObject × Stream' ℤ)) : SyncDatabase := calls.foldl upsertInto {}

/-- What is then stored under a key. -/
def storedObject (calls : List (SyncObject × Stream' ℤ)) (k : SyncKey) : Option SyncObject :=
  (upsertAll calls).syncObjects.object k

/-- The object that the last call with a key was given. -/
def lastUpsert (calls : List (SyncObject × Stream' ℤ)) (k : SyncKey) : Option SyncObject :=
  ((calls.map Prod.fst).filter fun obj => obj.key = k).getLast?

/-- The store holds a map: `object calls k` is what it returns for `k` after the calls. -/
structure RefinesMap (object : List (SyncObject × Stream' ℤ) → SyncKey → Option SyncObject) :
    Prop where
  succeeds : ∀ calls obj clock, ((SyncObjectStore.upsertSyncObject obj).run (serveOn DBType.sqlite)
    (clock, upsertAll calls)).1 = .err none
  get : ∀ calls (o : RowOrder) clock (k : SyncKey),
    ((SyncObjectStore.getSyncObject k.syncID k.sourceVaultID k.targetVaultID k.secretName).run
      (serveOrdered o DBType.sqlite) (clock, upsertAll calls)).1 = .object (object calls k) none
  last : ∀ calls k, ∃ id, object calls k = (lastUpsert calls k).map fun obj => { obj with id := id }
  id_stable : ∀ calls more k obj, object calls k = some obj →
    ∃ obj', object (calls ++ more) k = some obj' ∧ obj'.id = obj.id
  id_distinct : ∀ calls k k' obj obj', object calls k = some obj → object calls k' = some obj' →
    obj.id = obj'.id → k = k'
  bySync : ∀ calls (o : RowOrder) clock syncID, ∃ objs,
    ((SyncObjectStore.getSyncObjectsBySync syncID).run (serveOrdered o DBType.sqlite)
      (clock, upsertAll calls)).1 = .objects objs none ∧ (objs.map SyncObject.key).Nodup ∧
    ∀ obj, obj ∈ objs ↔ obj.syncID = syncID ∧ object calls obj.key = some obj
  frame : ∀ calls obj clock k, k ≠ obj.key → object (calls ++ [(obj, clock)]) k = object calls k

-- an equation of functions: unfolded under a projection, the whole run would be evaluated
theorem upsertInto_def : upsertInto = fun db c =>
    ((SyncObjectStore.upsertSyncObject c.1).run (serveOn DBType.sqlite) (c.2, db)).2.2 := rfl

theorem upsertInto_syncObjects (db : SyncDatabase) (c : SyncObject × Stream' ℤ) :
    (upsertInto db c).syncObjects = db.syncObjects.upsert c.1 (c.2.get 0) (c.2.get 3) := by
  obtain ⟨clock', hrun⟩ := run_upsertSyncObject db c.2 c.1
  have hinto : upsertInto db c = ((SyncObjectStore.upsertSyncObject c.1).run (serveOn DBType.sqlite)
    (c.2, db)).2.2 := congrFun (congrFun upsertInto_def db) c
  rw [hinto, hrun]

theorem upsertAll_concat (calls : List (SyncObject × Stream' ℤ)) (obj : SyncObject) (clock : Stream' ℤ) :
    (upsertAll (calls ++ [(obj, clock)])).syncObjects =
      (upsertAll calls).syncObjects.upsert obj (clock.get 0) (clock.get 3) := by
  rw [upsertAll, List.foldl_append, List.foldl_cons, List.foldl_nil]
  exact upsertInto_syncObjects _ (obj, clock)

theorem storedObject_concat (calls : List (SyncObject × Stream' ℤ)) (obj : SyncObject)
    (clock : Stream' ℤ) (k : SyncKey) : storedObject (calls ++ [(obj, clock)]) k =
      if k = obj.key then some { obj with id := (upsertAll calls).syncObjects.idFor obj.key }
      else storedObject calls k := by
  rw [storedObject, upsertAll_concat, SyncObjectTable.object_upsert]
  rfl

theorem lastUpsert_concat (calls : List (SyncObject × Stream' ℤ)) (obj : SyncObject)
    (clock : Stream' ℤ) (k : SyncKey) : lastUpsert (calls ++ [(obj, clock)]) k =
      if k = obj.key then some obj else lastUpsert calls k := by
  rw [lastUpsert, lastUpsert, List.map_append, List.filter_append]
  by_cases hk : obj.key = k
  · simp [hk]
  · simp [hk, Ne.symm hk]

theorem storedObject_last (calls : List (SyncObject × Stream' ℤ)) (k : SyncKey) :
    ∃ id, storedObject calls k = (lastUpsert calls k).map fun obj => { obj with id := id } := by
  induction calls using List.reverseRecOn with
  | nil => exact ⟨0, rfl⟩
  | append_singleton calls c ih =>
    obtain ⟨obj, clock⟩ := c
    rw [storedObject_concat, lastUpsert_concat]
    split_ifs with hk
    · exact ⟨_, rfl⟩
    · exact ih

/-- An id stays with its key. -/
theorem storedObject_id (calls more : List (SyncObject × Stream' ℤ)) {k : SyncKey} {obj : SyncObject}
    (h : storedObject calls k = some obj) :
    ∃ obj', storedObject (calls ++ more) k = some obj' ∧ obj'.id = obj.id := by
  induction more using List.reverseRecOn with
  | nil => exact ⟨obj, by rw [List.append_nil, h], rfl⟩
  | append_singleton more c ih =>
    obtain ⟨obj₁, clock⟩ := c
    obtain ⟨obj', hobj', hid⟩ := ih
    rw [← List.append_assoc, storedObject_concat]
    split_ifs with hk
    · subst hk
      refine ⟨_, rfl, ?_⟩
      rw [storedObject] at hobj'
      simp [SyncObjectTable.idFor, hobj', hid]
    · exact ⟨obj', hobj', hid⟩

/-- The objects of a sync are those under its keys, each of them once. -/
theorem objects_of_sync (t : SyncObjectTable) {syncID : String} {rows : List SyncObjectRow}
    (hrows : rows.Perm (t.rows.filter fun r => r.syncID = syncID)) :
    ((rows.map SyncObjectRow.toSyncObject).map SyncObject.key).Nodup ∧
      ∀ obj, obj ∈ rows.map SyncObjectRow.toSyncObject ↔
        obj.syncID = syncID ∧ t.object obj.key = some obj := by
  constructor
  · rw [List.map_map]
    exact ((hrows.map _).nodup_iff).mpr (t.keys_nodup.sublist (List.filter_sublist.map _))
  · intro obj
    rw [(hrows.map _).mem_iff, List.mem_map]
    constructor
    · rintro ⟨r, hr, rfl⟩
      obtain ⟨hmem, hsync⟩ := List.mem_filter.mp hr
      refine ⟨of_decide_eq_true hsync, ?_⟩
      rw [SyncObjectTable.object, SyncObjectTable.lookup]
      exact congrArg _ (Table.lookup_of_mem t.keys_nodup hmem)
    · rintro ⟨hsync, hobj⟩
      obtain ⟨r, hr, rfl⟩ := Option.map_eq_some_iff.mp hobj
      exact ⟨r, List.mem_filter.mpr ⟨Table.lookup_mem hr, by simpa using hsync⟩, rfl⟩

/-- The store refines a map from keys to objects. -/
theorem storedObject_refinesMap : RefinesMap storedObject where
  succeeds calls obj clock := by
    obtain ⟨clock', hrun⟩ := run_upsertSyncObject (upsertAll calls) clock obj
    rw [hrun]
  get calls o clock k := run_getSyncObject k
  last := storedObject_last
  id_stable calls more k obj h := storedObject_id calls more h
  id_distinct calls k k' obj obj' h h' hid := SyncObjectTable.object_inj h h' hid
  bySync calls o clock syncID :=
    ⟨_, run_getSyncObjectsBySync syncID, objects_of_sync _ (o.objects_ordered _).perm⟩
  frame calls obj clock k hk := by rw [storedObject_concat, if_neg hk]

end VaultsSyncer
