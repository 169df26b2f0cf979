import VaultsSyncer.Api.SyncDialog
import VaultsSyncer.Storage.ConfigWrites

/-! What is stored after the sync dialog has been opened and saved without a change. -/

namespace VaultsSyncer

open GoStd Schemes Schemes.Prog

/-- A sync as it is stored: what its row reads as. -/
def syncRow (db : Database) (id : String) : Option SyncConfig :=
  (db.text .syncs id).bind SyncConfig.codec.unmarshal

/-- A sync without retry settings is read back as it was written. -/
theorem reread_of_retryPolicy {sc : SyncConfig} (h : sc.retryPolicy = {}) : sc.reread = sc := by
  have hzero : Codec.float.norm 0 = 0 := by decide +kernel
  have hretry : RetryPolicy.codec.norm {} = {} := congrArg (RetryPolicy.mk 0 0 0) hzero
  have hnorm (key source syncType schedule : String) (targets patterns exclude : List String)
      (transforms : List Transform) (workers : ℤ) (enabled : Option Bool) : SyncConfig.reread
        { id := key, source, targets, syncType, schedule, filter := ⟨patterns, exclude⟩, transforms
          concurrentWorkers := workers, enabled } =
      { id := key, source, targets := targets.map id, syncType, schedule
        filter := ⟨patterns.map id, exclude.map id⟩, transforms := transforms.map id
        retryPolicy := RetryPolicy.codec.norm {}, concurrentWorkers := workers
        enabled := enabled.map id } := rfl
  obtain ⟨key, source, targets, syncType, schedule, ⟨patterns, exclude⟩, transforms, retry, workers,
    enabled⟩ := sc
  obtain rfl : retry = {} := h
  rw [hnorm, hretry, Option.map_id_fun]
  simp only [List.map_id, id]

section Stored

variable (s : ConfigStore) {db : Database} (env : Surroundings) {id : String} {sc : SyncConfig}

theorem run_apiFetch (p : Db ApiReply) (x : Surroundings × Database) :
    (apiFetch p).run serve x = (if (p.run serve x).1.Success then .ok (p.run serve x).1.body
      else .error (extractErrorMessage (p.run serve x).1.body
        ("HTTP " ++ toString (p.run serve x).1.status)), (p.run serve x).2) := by
  rw [apiFetch, run_bind]
  split_ifs <;> rfl

/-- The store returns the stored sync, where the database answers. -/
theorem run_getSync_stored (h : syncRow db id = some sc) :
    ((s.getSync id).run serve (env, db)).2.2 = db ∧
    ((∃ err, ((s.getSync id).run serve (env, db)).1 = .error err) ∨
      ((s.getSync id).run serve (env, db)).1 = .ok (some sc)) ∧
    (env.Works → ((s.getSync id).run serve (env, db)).1 = .ok (some sc)) := by
  obtain ⟨raw, hraw, hsc⟩ := Option.bind_eq_some_iff.mp h
  have hread (pre : String) : s.readSync pre raw = .ok sc := by
    rw [ConfigStore.readSync, hsc]
  have hne : raw ≠ "" := by
    rintro rfl
    exact ConfigStore.readSync_empty "" sc (hread "")
  have hok : ((ConfigStore.getConfigJSON .syncs id).run serve (env, db)).1 = .ok raw →
      ((s.getSync id).run serve (env, db)).1 = .ok (some sc) := by
    intro hjson
    rw [ConfigStore.run_getSync, hjson]
    change (if raw = "" then _ else _) = _
    rw [if_neg hne, hread]
    rfl
  have hjson := ConfigStore.run_getConfigJSON .syncs id env db
  rw [hraw] at hjson
  refine ⟨run_reads (allCalls_getSync rfl) env db, ?_, fun henv => ?_⟩
  · rcases hhead : env.faults.head with _ | err
    · rw [hhead] at hjson
      exact .inr (hok hjson)
    · rw [hhead] at hjson
      rw [ConfigStore.run_getSync, hjson]
      exact .inl ⟨_, rfl⟩
  · have hhead : env.faults.head = none := henv 0
    rw [hhead] at hjson
    exact hok hjson

theorem run_getSyncConfig (h : syncRow db id = some sc) :
    ((ConfigHandler.getSyncConfig s id).run serve (env, db)).2.2 = db ∧
    (¬((ConfigHandler.getSyncConfig s id).run serve (env, db)).1.Success ∨
      ((ConfigHandler.getSyncConfig s id).run serve (env, db)).1 = jsonOK (SyncConfig.codec.enc sc)) ∧
    (env.Works → id ≠ "" →
      ((ConfigHandler.getSyncConfig s id).run serve (env, db)).1 = jsonOK (SyncConfig.codec.enc sc)) := by
  obtain ⟨hdb, hcases, hworks⟩ := run_getSync_stored s env h
  rw [ConfigHandler.getSyncConfig]
  split_ifs with hid
  · exact ⟨rfl, .inl (jsonError_not_success _ (by decide)), fun _ hne => absurd hid hne⟩
  rw [run_bind]
  generalize (s.getSync id).run serve (env, db) = x at hdb hcases hworks ⊢
  obtain ⟨r, env', db'⟩ := x
  obtain rfl : db' = db := hdb
  rcases hcases with ⟨err, hr⟩ | hr
  · obtain rfl : r = .error err := hr
    refine ⟨rfl, .inl (jsonError_not_success _ (by decide)), fun henv _ => ?_⟩
    cases hworks henv
  · obtain rfl : r = .ok (some sc) := hr
    exact ⟨rfl, .inr rfl, fun _ _ => rfl⟩

/-- An update to what is stored changes nothing, wherever it breaks off. -/
theorem stored_updateSync (h : syncRow db id = some sc) {body : SyncConfig}
    (hbody : { body with id := id }.reread = sc) :
    syncRow ((ConfigHandler.updateSync s id (some body)).run serve (env, db)).2.2 id = some sc := by
  set json := SyncConfig.codec.marshal { body with id := id } with hjson
  have hread : SyncConfig.codec.unmarshal json = some sc := by
    rw [hjson, SyncConfig.unmarshal_marshal, hbody]
  have hcalls : (ConfigHandler.updateSync s id (some body)).AllCalls (DbCall.Only fun st =>
      st.Reads = true ∨ (∃ now, st = .updateConfig .syncs id json now) ∨
        ∃ now, st = .insertConfig .syncs id json now) := by
    rcases program_handles s (.updateSync id (some body)) with ⟨message, code, -, hrefuses⟩ | ⟨q, hq, hhandles⟩
    · rw [show ConfigHandler.updateSync s id (some body) = _ from hrefuses]
      trivial
    · obtain rfl : ConfigStore.saveSync { body with id := id } = q := Option.some.inj hq
      refine hhandles.allCalls (allCalls_upsertConfigRow (fun now => .inr (.inl ⟨now, rfl⟩))
        fun now => .inr (.inr ⟨now, rfl⟩)) fun op hop => ?_
      cases op with
      | sql st => exact .inl hop.1
      | _ => trivial
  refine hcalls.run_preserves serve (I := fun x => syncRow x.2 id = some sc) ?_ h
  rintro op ⟨env, db⟩ hop hdb
  refine serve_preserves (I := fun db => syncRow db id = some sc) hop ?_ env hdb
  rintro st db (hreads | ⟨now, rfl⟩ | ⟨now, rfl⟩) hdb
  · rw [Stmt.exec_reads hreads]
    exact hdb
  · obtain ⟨raw, hraw, -⟩ := Option.bind_eq_some_iff.mp hdb
    rw [syncRow, text_update, if_pos ⟨rfl, rfl⟩, hraw, Option.map_some, Option.bind_some, hread]
  · by_cases hfree : db.text .syncs id = none
    · rw [syncRow, text_insert hfree, if_pos ⟨rfl, rfl⟩, Option.bind_some, hread]
    · have htaken : (db.config .syncs).lookup id ≠ none := mt Option.map_eq_none_iff.mpr hfree
      have hsame : ((Stmt.insertConfig .syncs id json now).exec db).2 = db := by
        simp only [Stmt.exec, htaken, ↓reduceDIte]
      rw [hsame]
      exact hdb

/-- On a working database an update replaces the row. -/
theorem stored_updateSync_of_works (henv : env.Works) (hid : id ≠ "") (h : syncRow db id = some sc)
    (body : SyncConfig) :
    syncRow ((ConfigHandler.updateSync s id (some body)).run serve (env, db)).2.2 id =
      some { body with id := id }.reread := by
  obtain ⟨hdb, -, hworks⟩ := run_getSync_stored s env h
  have henv' := henv.run (s.getSync id) db
  have hget := hworks henv
  rw [ConfigHandler.updateSync, if_neg hid, run_bind]
  generalize (s.getSync id).run serve (env, db) = x at hdb hget henv' ⊢
  obtain ⟨r, env', db'⟩ := x
  obtain rfl : db' = db := hdb
  obtain rfl : r = .ok (some sc) := hget
  have hok := @ConfigStore.run_upsertConfigRow db' env' henv' .syncs id
    (SyncConfig.codec.marshal { body with id := id })
  dsimp only
  rw [run_bind]
  rcases hsave : (ConfigStore.saveSync { body with id := id }).run serve (env', db') with ⟨r, env'', db''⟩
  rw [ConfigStore.saveSync] at hsave
  rw [hsave] at hok
  obtain rfl : r = .ok () := hok
  have htext := ConfigStore.text_upsert hsave .syncs id
  rw [if_pos ⟨rfl, rfl⟩] at htext
  change syncRow db'' id = _
  rw [syncRow, htext, Option.bind_some, SyncConfig.unmarshal_marshal]

/-- The body of the request decodes to the sync it is to become. -/
theorem unmarshal_stringify {vaultIDs : List String} {key : String} :
    ∃ body, SyncConfig.codec.unmarshal (stringify (.object (payloadMembers key
      (resubmitted vaultIDs sc).source (resubmitted vaultIDs sc).targets
      (resubmitted vaultIDs sc).syncType (resubmitted vaultIDs sc).schedule sc.isEnabled
      (resubmitted vaultIDs sc).concurrentWorkers))) = some body ∧
    { body with id := sc.id } = resubmitted vaultIDs sc := by
  refine ⟨{ resubmitted vaultIDs sc with id := key }, ?_, rfl⟩
  set members := payloadMembers key (resubmitted vaultIDs sc).source (resubmitted vaultIDs sc).targets
    (resubmitted vaultIDs sc).syncType (resubmitted vaultIDs sc).schedule sc.isEnabled
    (resubmitted vaultIDs sc).concurrentWorkers with hmembers
  have hdepth : (Json.object members).depth ≤ maxNestingDepth := by
    have htargets : (Json.array ((resubmitted vaultIDs sc).targets.map .string)).depth ≤ 1 := by
      have helems : Json.depthElems ((resubmitted vaultIDs sc).targets.map .string) ≤ 0 := by
        refine Json.depthElems_le fun j hj => ?_
        obtain ⟨t, -, rfl⟩ := List.mem_map.mp hj
        exact le_rfl
      rw [Json.depth]
      omega
    have hflat : Json.depthMembers members ≤ 1 := by
      refine Json.depthMembers_le ?_
      simp only [hmembers, payloadMembers, List.forall_mem_cons, htargets, true_and]
      simp [Json.depth, Json.int]
    have hmax : 2 ≤ maxNestingDepth := by decide
    rw [Json.depth]
    omega
  rw [Codec.unmarshal, stringify, String.toList_ofList, Json.read_print]
  simp only [Option.bind_eq_bind, Option.bind_some]
  rw [if_pos hdepth, hmembers, dec_payload]
  rfl

/-- What a save without changes comes to: nothing, or one update with the sync resubmitted. -/
theorem run_saveUnchanged (vaultIDs : List String) (hstored : syncRow db sc.id = some sc) :
    (((saveUnchanged s vaultIDs sc.id).run serve (env, db)).2.2 = db ∧
      (env.Works → ¬Submits vaultIDs sc)) ∨
    (Submits vaultIDs sc ∧ ∃ env' body, { body with id := sc.id } = resubmitted vaultIDs sc ∧
      (env.Works → env'.Works) ∧ ((saveUnchanged s vaultIDs sc.id).run serve (env, db)).2.2 =
        ((ConfigHandler.updateSync s sc.id (some body)).run serve (env', db)).2.2) := by
  by_cases haddressed : sc.id ∈ unaddressed
  · left
    rw [saveUnchanged, if_pos haddressed]
    exact ⟨rfl, fun _ hsubmits => hsubmits.addressed haddressed⟩
  obtain ⟨hdb, hcases, hworks⟩ := run_getSyncConfig s env hstored
  have henv' : env.Works → _ := fun henv => henv.run (ConfigHandler.getSyncConfig s sc.id) db
  rw [saveUnchanged, if_neg haddressed, run_bind, run_apiFetch]
  generalize (ConfigHandler.getSyncConfig s sc.id).run serve (env, db) = x at hdb hcases hworks henv' ⊢
  obtain ⟨reply, env', db'⟩ := x
  obtain rfl : db' = db := hdb
  rcases hcases with hfailed | hreply
  · left
    rw [if_neg hfailed]
    refine ⟨rfl, fun henv hsubmits => hfailed ?_⟩
    obtain rfl : reply = jsonOK (SyncConfig.codec.enc sc) := hworks henv hsubmits.id
    exact jsonOK_success _
  obtain rfl : reply = jsonOK (SyncConfig.codec.enc sc) := hreply
  rw [if_pos (jsonOK_success _)]
  dsimp only [jsonOK]
  by_cases hsubmits : Submits vaultIDs sc
  · obtain ⟨key, hsubmit⟩ := submit_of_submits hsubmits
    obtain ⟨body, hbody, hresubmitted⟩ := @unmarshal_stringify sc vaultIDs key
    refine .inr ⟨hsubmits, env', body, hresubmitted, henv', ?_⟩
    rw [hsubmit]
    dsimp only
    rw [hbody, run_bind, run_apiFetch]
    split_ifs <;> rfl
  · obtain ⟨message, hrefused⟩ := submit_of_not_submits haddressed hsubmits
    rw [hrefused]
    exact .inl ⟨rfl, fun _ => hsubmits⟩

/-- On a working database a form that is sent puts the sync resubmitted in place of the one that was. -/
theorem stored_saveUnchanged_of_works {vaultIDs : List String} (hstored : syncRow db sc.id = some sc)
    (henv : env.Works) (hsubmits : Submits vaultIDs sc) :
    syncRow ((saveUnchanged s vaultIDs sc.id).run serve (env, db)).2.2 sc.id =
      some (resubmitted vaultIDs sc) := by
  rcases run_saveUnchanged s env vaultIDs hstored with ⟨-, hnot⟩ | ⟨-, env', body, hbody, hworks, hrun⟩
  · exact absurd hsubmits (hnot henv)
  · rw [hrun, stored_updateSync_of_works s env' (hworks henv) hsubmits.id hstored, hbody,
      reread_of_retryPolicy rfl]

end Stored

/-- A stored sync survives a save without changes exactly where nothing is sent, or where it has none of
    the fields that the dialog drops and only texts that it shows as they are. -/
theorem saveUnchanged_preserves_iff (s : ConfigStore) (vaultIDs : List String) {db : Database}
    {sc : SyncConfig} (hstored : syncRow db sc.id = some sc) :
    (∀ env, syncRow ((saveUnchanged s vaultIDs sc.id).run serve (env, db)).2.2 sc.id = some sc) ↔
      ¬Submits vaultIDs sc ∨ Untouched vaultIDs sc := by
  constructor
  · intro h
    by_cases hsubmits : Submits vaultIDs sc
    · have hafter := stored_saveUnchanged_of_works s {} hstored (fun _ => rfl) hsubmits
      rw [h {}] at hafter
      exact .inr (resubmitted_eq_self.mp (Option.some.inj hafter).symm)
    · exact .inl hsubmits
  · rintro h env
    rcases run_saveUnchanged s env vaultIDs hstored with
      ⟨hsame, -⟩ | ⟨hsubmits, env', body, hbody, -, hrun⟩
    · rw [hsame, hstored]
    · have huntouched := h.resolve_left (not_not.mpr hsubmits)
      have hbody' : { body with id := sc.id }.reread = sc := by
        rw [hbody, reread_of_retryPolicy rfl, resubmitted_eq_self.mpr huntouched]
      rw [hrun]
      exact stored_updateSync s env' hstored hbody'

/-! ### A database with one sync -/

/-- What `SaveSync` leaves in an empty database. -/
def storeOf (sc : SyncConfig) : Database := ((ConfigStore.saveSync sc).run serve ({}, .empty)).2.2

theorem syncRow_storeOf (sc : SyncConfig) : syncRow (storeOf sc) sc.id = some sc.reread := by
  have hok := @ConfigStore.run_upsertConfigRow .empty {} (fun _ => rfl) .syncs sc.id
    (SyncConfig.codec.marshal sc)
  rw [storeOf]
  rcases hsave : (ConfigStore.saveSync sc).run serve ({}, .empty) with ⟨r, env, db⟩
  rw [ConfigStore.saveSync] at hsave
  rw [hsave] at hok
  obtain rfl : r = .ok () := hok
  have htext := ConfigStore.text_upsert hsave .syncs sc.id
  rw [if_pos ⟨rfl, rfl⟩] at htext
  rw [syncRow, htext, Option.bind_some, SyncConfig.unmarshal_marshal]

/-- A sync without retry settings is stored as it is. -/
theorem syncRow_of_retryPolicy (sc : SyncConfig) (h : sc.retryPolicy = {}) :
    syncRow (storeOf sc) sc.id = some sc := by
  rw [syncRow_storeOf, reread_of_retryPolicy h]

/-- A sync without filter, transforms and retry policy. -/
def plainSync : SyncConfig where
  id := "s"
  source := "a"
  targets := ["b"]
  syncType := "unidirectional"
  schedule := "0 */5 * * * *"
  concurrentWorkers := 2
  enabled := some true

theorem submits_plainSync : Submits ["a", "b"] plainSync where
  addressed := by decide
  id := by decide
  source := by decide
  source_text := by
    intro h
    exact absurd (h 'a' (by decide)) (by decide)
  targets := ⟨"b", by decide, by decide⟩
  schedule := by
    intro h
    exact absurd (h '0' (by decide)) (by decide)
  workers := by decide

theorem plainSync_survives : syncRow
    ((saveUnchanged {} ["a", "b"] plainSync.id).run serve ({}, storeOf plainSync)).2.2 plainSync.id =
      some plainSync := by
  have hiff := saveUnchanged_preserves_iff {} ["a", "b"] (syncRow_of_retryPolicy plainSync rfl)
  refine hiff.mpr (.inr ?_) {}
  exact {
    filter := rfl
    transforms := rfl
    retryPolicy := rfl
    enabled := by decide
    syncType := .inl rfl
    workers := by decide
    source := ⟨by decide +kernel, by simp [plainSync]⟩
    schedule := ⟨⟨by decide +kernel, by simp [plainSync]⟩, by simp [plainSync]⟩
    known := by decide
    targets := by decide +kernel }

/-- The same sync, with secrets that are kept back. -/
def filteredSync : SyncConfig := { plainSync with filter := { exclude := ["prod-*"] } }

/-- After a save without changes nothing is kept back any more. -/
theorem unchanged_save_drops_exclude :
    syncRow (storeOf filteredSync) filteredSync.id = some filteredSync ∧
      filteredSync.filter.exclude = ["prod-*"] ∧
      ∃ after, syncRow ((saveUnchanged {} ["a", "b"] filteredSync.id).run serve
        ({}, storeOf filteredSync)).2.2 filteredSync.id = some after ∧
          after.filter.exclude = [] ∧ after ≠ filteredSync := by
  have hstored := syncRow_of_retryPolicy filteredSync rfl
  obtain ⟨haddressed, hid, hsource, htext, htargets, hschedule, hworkers⟩ := submits_plainSync
  have hsubmits : Submits ["a", "b"] filteredSync :=
    ⟨haddressed, hid, hsource, htext, htargets, hschedule, hworkers⟩
  have hafter := stored_saveUnchanged_of_works {} {} hstored (fun _ => rfl) hsubmits
  refine ⟨hstored, rfl, _, hafter, rfl, fun h => ?_⟩
  have hexclude : ([] : List String) = ["prod-*"] := congrArg (fun sc => sc.filter.exclude) h
  exact absurd hexclude (by decide)

end VaultsSyncer
