import VaultsSyncer.Api.ConfigHandlers
import VaultsSyncer.Schemes.OneKeyRuns
import VaultsSyncer.Storage.ConfigWrites

/-! Config requests on one row, phase by phase. Of the calls of a handler only the statements count, and
    each of them is a step of `Schemes.OneKey` on what the row says (`requests_refine`):

        Looks      SELECT     what it finds decides
        Updates    UPDATE     and then an INSERT, if it meets no row
        Inserts    INSERT     a clash, if a row has come to be
        Deletes    DELETE -/

namespace VaultsSyncer

open GoStd Schemes Schemes.Prog Schemes.Phases

/-- The status of the reply. -/
def statusOf : OneKey.Outcome → ℕ
  | .saved .create => 201
  | .saved .update => 200
  | .rejected .create => 409
  | .rejected .update => 404
  | .deleted => 200
  | .clash => 500
  | .refused => 400

theorem statusOf_eq_500 {o : OneKey.Outcome} (h : statusOf o = 500) : o = .clash := by
  revert h
  rcases o with (_ | _) | (_ | _) | _ | _ | _ <;> decide

theorem statusOf_eq_201 {o : OneKey.Outcome} (h : statusOf o = 201) : o = .saved .create := by
  revert h
  rcases o with (_ | _) | (_ | _) | _ | _ | _ <;> decide

/-! ### Calls that do not count -/

/-- Only statements touch the database. -/
theorem silent_of_only {op : DbCall} (h : op.Only fun _ => False) : Silent serve op := by
  intro e
  cases op with
  | sql s => exact h.elim
  | rowsAffected n =>
    simp only [serve]
    rcases e.faults.head with _ | err <;> exact ⟨_, _, fun _ => rfl⟩
  | now => exact ⟨_, _, fun _ => rfl⟩
  | randRead n => exact ⟨_, _, fun _ => rfl⟩

/-! ### One row -/

section Row

variable {ν : Type} (t : ConfigTable) (id : String) (read : String → String → Except GoError ν)

/-- The row says what the entry is, and the other rows are as in `db₀`. -/
structure RowIs (db₀ db : Database) (y : Option ν) : Prop where
  row : Option.Rel (fun raw v => ∀ pre, read pre raw = .ok v) (db.text t id) y
  others : ∀ t' k, ¬(t' = t ∧ k = id) → db.text t' k = db₀.text t' k

/-- The reply has the status of the outcome. -/
def RepliesWith (o : OneKey.Outcome) (p : Db ApiReply) (_ : Surroundings) : Prop :=
  ∃ a, p = .ret a ∧ a.status = statusOf o

/-- The INSERT comes next. -/
def Inserts (verb : OneKey.Verb) (v : ν) (p : Db ApiReply) (env : Surroundings) : Prop :=
  env.faults.head = none ∧ ∃ raw now k, (∀ pre, read pre raw = .ok v) ∧
    p = .call (.sql (.insertConfig t id raw now)) k ∧
    Settles serve (RepliesWith (.saved verb)) (k (.ok ())) env.next ∧
    ∀ err, Settles serve (RepliesWith .clash) (k (.error err)) env.next

/-- The UPDATE comes next, and then an INSERT if it meets no row. -/
def Updates (verb : OneKey.Verb) (v : ν) (p : Db ApiReply) (env : Surroundings) : Prop :=
  env.faults.head = none ∧ ∃ raw now k, (∀ pre, read pre raw = .ok v) ∧
    p = .call (.sql (.updateConfig t id raw now)) k ∧
    Settles serve (Inserts t id read verb v) (k (.ok 0)) env.next ∧
    Settles serve (RepliesWith (.saved verb)) (k (.ok 1)) env.next

/-- The SELECT comes next, and what it finds decides. -/
def Looks (verb : OneKey.Verb) (v : ν) (p : Db ApiReply) (env : Surroundings) : Prop :=
  env.faults.head = none ∧ ∃ k, p = .call (.sql (.selectConfig t id)) k ∧
    ∀ raw y, Option.Rel (fun raw a => ∀ pre, read pre raw = .ok a) raw y →
      (verb.Accepts y → Settles serve (Updates t id read verb v) (k (.ok raw)) env.next) ∧
      (¬verb.Accepts y → Settles serve (RepliesWith (.rejected verb)) (k (.ok raw)) env.next)

/-- The DELETE comes next. -/
def Deletes (p : Db ApiReply) (env : Surroundings) : Prop :=
  env.faults.head = none ∧ ∃ k, p = .call (.sql (.deleteConfig t id)) k ∧
    Settles serve (RepliesWith .deleted) (k (.ok ())) env.next

/-- The program of a request in each phase. -/
def RequestAt (r : OneKey.Request ν) : OneKey.Phase ν → Db ApiReply → Surroundings → Prop
  | .start =>
    match r with
    | .save verb v => Looks t id read verb v
    | .delete => Deletes t id
    | .refused => fun _ _ => False
  | .writing verb v => Updates t id read verb v
  | .inserting verb v => Inserts t id read verb v
  | .done o => RepliesWith o

end Row

theorem serve_sql {env : Surroundings} (h : env.faults.head = none) (st : Stmt) (db : Database) :
    serve (.sql st) (env, db) = ((st.exec db).1, env.next, (st.exec db).2) := by
  simp only [serve, h]
  rfl

section Statements

variable {ν : Type} {t : ConfigTable} {id : String} {read : String → String → Except GoError ν}
  {db₀ db : Database} {raw : String} {v : ν} {y : Option ν} {now : ℤ}

theorem RowIs.text_none (h : RowIs t id read db₀ db y) : db.text t id = none ↔ y = none := by
  have hrow := h.row
  generalize db.text t id = x at hrow
  cases hrow <;> simp

theorem RowIs.lookup_none (h : RowIs t id read db₀ db y) : (db.config t).lookup id = none ↔ y = none := by
  rw [← h.text_none, Database.text, Option.map_eq_none_iff]

theorem RowIs.said_eq (h : RowIs t id read db₀ db y) : said read (db.text t) id = y := by
  have hrow := h.row
  generalize hraw : db.text t id = raw at hrow
  cases hrow with
  | none => rw [said, hraw]; rfl
  | some hread => exact said_of_read hraw hread

/-- Two databases that say the same of the row say the same of all rows. -/
theorem RowIs.said_congr {db' : Database} (h : RowIs t id read db₀ db y)
    (h' : RowIs t id read db₀ db' y) :
    said read (db.text t) = said read (db'.text t) ∧ ∀ t' ≠ t, db.text t' = db'.text t' := by
  constructor
  · funext k
    rcases eq_or_ne k id with rfl | hk
    · rw [h.said_eq, h'.said_eq]
    · rw [said, said, h.others t k (fun hne => hk hne.2), h'.others t k fun hne => hk hne.2]
  · intro t' ht
    funext k
    rw [h.others t' k (fun hne => ht hne.1), h'.others t' k fun hne => ht hne.1]

/-- The row is written, and no other. -/
theorem RowIs.put (h : RowIs t id read db₀ db y) {db' : Database}
    (htext : ∀ t' k, db'.text t' k = if t' = t ∧ k = id then some raw else db.text t' k)
    (hread : ∀ pre, read pre raw = .ok v) : RowIs t id read db₀ db' (some v) where
  row := by
    rw [htext, if_pos ⟨rfl, rfl⟩]
    exact .some hread
  others := by
    intro t' k hne
    rw [htext, if_neg hne, h.others t' k hne]

theorem RowIs.update (h : RowIs t id read db₀ db y) (hy : y ≠ none)
    (hread : ∀ pre, read pre raw = .ok v) :
    RowIs t id read db₀ ((Stmt.updateConfig t id raw now).exec db).2 (some v) := by
  refine h.put (fun t' k => ?_) hread
  obtain ⟨old, hold⟩ := Option.ne_none_iff_exists'.mp (mt h.text_none.mp hy)
  rw [text_update, hold, Option.map_some]

theorem RowIs.update_none (h : RowIs t id read db₀ db none) :
    RowIs t id read db₀ ((Stmt.updateConfig t id raw now).exec db).2 none := by
  have hnone := h.text_none.mpr rfl
  refine ⟨?_, fun t' k hne => ?_⟩
  · rw [text_update, if_pos ⟨rfl, rfl⟩, hnone]
    exact .none
  · rw [text_update, if_neg hne, h.others t' k hne]

theorem RowIs.insert (h : RowIs t id read db₀ db none) (hread : ∀ pre, read pre raw = .ok v) :
    RowIs t id read db₀ ((Stmt.insertConfig t id raw now).exec db).2 (some v) :=
  h.put (fun t' k => text_insert (h.text_none.mpr rfl) k t') hread

theorem RowIs.delete (h : RowIs t id read db₀ db y) :
    RowIs t id read db₀ ((Stmt.deleteConfig t id).exec db).2 none := by
  refine ⟨?_, fun t' k hne => ?_⟩
  · rw [text_delete, if_pos ⟨rfl, rfl⟩]
    exact .none
  · rw [text_delete, if_neg hne, h.others t' k hne]

theorem RowIs.affected (h : RowIs t id read db₀ db y) :
    (db.config t).affected id = if y = none then 0 else 1 := by
  split_ifs with hy
  · exact Table.Keyed.affected_eq_zero.mpr (h.lookup_none.mpr hy)
  · have hle := Table.affected_le_one (db.config t).keys_nodup id
    have hne : (db.config t).affected id ≠ 0 :=
      fun hzero => hy (h.lookup_none.mp (Table.Keyed.affected_eq_zero.mp hzero))
    rw [Table.Keyed.affected] at hne ⊢
    omega

end Statements

/-- A statement of a request is a step on the row. -/
theorem requests_refine {ι ν : Type} (t : ConfigTable) (id : String)
    (read : String → String → Except GoError ν) (db₀ : Database) (r : ι → OneKey.Request ν) :
    Refines serve (fun i => (r i).step) OneKey.Phase.outcome (fun i => RequestAt t id read (r i))
      (RowIs t id read db₀) fun _ a o => a.status = statusOf o where
  call := by
    intro i p op k e db y hG hR
    cases p with
    | start =>
      generalize r i = q at hG ⊢
      cases q with
      | save verb v =>
        obtain ⟨hfault, k', hcall, hlook⟩ := hG
        obtain ⟨rfl, rfl⟩ := Prog.call.inj hcall
        obtain ⟨haccepts, hrejects⟩ := hlook _ _ hR.row
        rw [serve_sql hfault]
        by_cases h : verb.Accepts y
        · exact ⟨_, _, OneKey.Request.step_look h, haccepts h, hR⟩
        · exact ⟨_, _, OneKey.Request.step_reject h, hrejects h, hR⟩
      | delete =>
        obtain ⟨hfault, k', hcall, hreply⟩ := hG
        obtain ⟨rfl, rfl⟩ := Prog.call.inj hcall
        rw [serve_sql hfault]
        exact ⟨_, _, OneKey.Request.step_delete, hreply, hR.delete⟩
      | refused => exact hG.elim
    | writing verb v =>
      obtain ⟨hfault, raw, now, k', hread, hcall, hinserts, hreplies⟩ := hG
      obtain ⟨rfl, rfl⟩ := Prog.call.inj hcall
      rw [serve_sql hfault]
      have hrows : ((Stmt.updateConfig t id raw now).exec db).1 = .ok (if y = none then 0 else 1) :=
        congrArg Except.ok hR.affected
      rw [hrows]
      rcases y with _ | a
      · exact ⟨_, _, rfl, hinserts, hR.update_none⟩
      · exact ⟨_, _, rfl, hreplies, hR.update (Option.some_ne_none a) hread⟩
    | inserting verb v =>
      obtain ⟨hfault, raw, now, k', hread, hcall, hreplies, hclashes⟩ := hG
      obtain ⟨rfl, rfl⟩ := Prog.call.inj hcall
      rw [serve_sql hfault]
      rcases y with _ | a
      · have hok : ((Stmt.insertConfig t id raw now).exec db).1 = .ok () := by
          simp only [Stmt.exec, hR.lookup_none.mpr rfl, ↓reduceDIte]
        rw [hok]
        exact ⟨_, _, rfl, hreplies, hR.insert hread⟩
      · have htaken : ¬(db.config t).lookup id = none := mt hR.lookup_none.mp (Option.some_ne_none a)
        have hexec : (Stmt.insertConfig t id raw now).exec db =
            (.error (.new "UNIQUE constraint failed"), db) := by
          simp only [Stmt.exec, htaken, ↓reduceDIte]
        rw [hexec]
        exact ⟨_, _, rfl, hclashes _, hR⟩
    | done o =>
      obtain ⟨a, hret, -⟩ := hG
      cases hret
  ret := by
    intro i p a e hG
    cases p with
    | start =>
      generalize r i = q at hG
      cases q with
      | save verb v =>
        obtain ⟨-, k, hcall, -⟩ := hG
        cases hcall
      | delete =>
        obtain ⟨-, k, hcall, -⟩ := hG
        cases hcall
      | refused => exact hG.elim
    | writing verb v =>
      obtain ⟨-, raw, now, k, -, hcall, -⟩ := hG
      cases hcall
    | inserting verb v =>
      obtain ⟨-, raw, now, k, -, hcall, -⟩ := hG
      cases hcall
    | done o =>
      obtain ⟨b, hret, hstatus⟩ := hG
      obtain rfl := Prog.ret.inj hret
      exact ⟨o, rfl, hstatus⟩
  stays := OneKey.Request.step_of_outcome

/-! ### The programs of the handlers -/

section Programs

variable {ν : Type} {t : ConfigTable} {id raw : String} {read : String → String → Except GoError ν}
  {verb : OneKey.Verb} {v : ν} {env : Surroundings} {f : Except GoError Unit → Db ApiReply}

theorem upsert_settles (henv : env.Works) (hread : ∀ pre, read pre raw = .ok v)
    (hok : ∃ a, f (.ok ()) = .ret a ∧ a.status = statusOf (.saved verb))
    (herr : ∀ err, ∃ a, f (.error err) = .ret a ∧ a.status = statusOf .clash) :
    Settles serve (Updates t id read verb v) (ConfigStore.upsertConfigRow t id raw >>= f) env := by
  have hrows : ∀ m db, serve (.rowsAffected m) (env.tick.next, db) = (.ok m, env.tick.next.next, db) := by
    intro m db
    have hhead : env.tick.next.faults.head = none := henv.tick.next 0
    simp only [serve, hhead]
    rfl
  refine .skip (fun db => rfl) (.here ⟨henv.tick 0, raw, _, _, hread, rfl, ?_, ?_⟩)
  · refine .skip (hrows 0) (.here ⟨henv.tick.next.next 0, raw, _, _, hread, rfl, ?_, fun err => ?_⟩)
    · exact .here hok
    · exact .here (herr _)
  · exact .skip (hrows 1) (.here hok)

theorem saveVault_settles {s : ConfigStore} (henv : env.Works) (hdraws : env.Draws) (v : VaultConfig)
    (hok : ∃ a, f (.ok ()) = .ret a ∧ a.status = statusOf (.saved verb))
    (herr : ∀ err, ∃ a, f (.error err) = .ret a ∧ a.status = statusOf .clash) :
    Settles serve (Updates .vaults v.id s.readVault verb v.reread) (s.saveVault v >>= f) env := by
  rw [ConfigStore.saveVault]
  rcases hcipher : s.encryptor with _ | e
  · refine upsert_settles henv (fun pre => ?_) hok herr
    rw [ConfigStore.readVault, VaultConfig.unmarshal_marshal, hcipher]
  · dsimp only
    rw [bind_assoc]
    refine Settles.bind ((allCalls_encryptVaultAuth e v).mono fun op => silent_of_only) .empty ?_
    obtain ⟨out, hout⟩ := ConfigStore.encryptVaultAuth_draws e hdraws v .empty
    have hworks := henv.run (encryptVaultAuth e v) .empty
    generalize hrun : (encryptVaultAuth e v).run serve (env, .empty) = x at hout hworks
    obtain ⟨_, env₁, db₁⟩ := x
    subst hout
    obtain ⟨hopens, -⟩ := ConfigStore.run_encryptVaultAuth hrun
    refine upsert_settles hworks (fun pre => ?_) hok herr
    rw [ConfigStore.readVault, VaultConfig.unmarshal_marshal, hcipher]
    exact hopens

/-- The program reads the row and goes on with what it says. -/
def ReadsRow (t : ConfigTable) (id : String) (read : String → String → Except GoError ν)
    (get : Db (Except GoError (Option ν))) : Prop :=
  ∃ found : Except GoError (Option String) → Except GoError (Option ν),
    (∀ g : Except GoError (Option ν) → Db ApiReply,
      get >>= g = .call (.sql (.selectConfig t id)) fun r => g (found r)) ∧
    ∀ raw y, Option.Rel (fun raw a => ∀ pre, read pre raw = .ok a) raw y → found (.ok raw) = .ok y

theorem readsRow_of_json {k : Except GoError String → Db (Except GoError (Option ν))} {pre : String}
    (hempty : ∀ pre a, read pre "" ≠ .ok a) (herr : ∀ err, k (.error err) = .ret (.error err))
    (hok : ∀ raw, k (.ok raw) = if raw = "" then .ret (.ok none) else .ret ((read pre raw).map some)) :
    ReadsRow t id read (ConfigStore.getConfigJSON t id >>= k) := by
  refine ⟨fun
    | .error err => .error (.wrap ("storage: getConfigJSON " ++ t.name ++ ": ") err)
    | .ok raw => if raw.getD "" = "" then .ok none else (read pre (raw.getD "")).map some,
    fun g => congrArg (Prog.call _) (funext ?_), fun raw y h => ConfigStore.read_of_rel hempty h _⟩
  rintro (err | raw)
  · change k (.error (.wrap _ err)) >>= g = _
    rw [herr]
    rfl
  · change k (.ok (raw.getD "")) >>= g =
      g (if raw.getD "" = "" then .ok none else (read pre (raw.getD "")).map some)
    rw [hok]
    split_ifs <;> rfl

theorem getVault_readsRow (s : ConfigStore) (id : String) :
    ReadsRow .vaults id s.readVault (s.getVault id) :=
  readsRow_of_json ConfigStore.readVault_empty (fun _ => rfl) fun _ => rfl

theorem getSync_readsRow (s : ConfigStore) (id : String) :
    ReadsRow .syncs id s.readSync (s.getSync id) :=
  readsRow_of_json ConfigStore.readSync_empty (fun _ => rfl) fun _ => rfl

theorem looks_settles {get : Db (Except GoError (Option ν))} (hget : ReadsRow t id read get)
    (henv : env.Works) {g : Except GoError (Option ν) → Db ApiReply}
    (haccepts : ∀ y, verb.Accepts y → Settles serve (Updates t id read verb v) (g (.ok y)) env.next)
    (hrejects : ∀ y, ¬verb.Accepts y → ∃ a, g (.ok y) = .ret a ∧ a.status = statusOf (.rejected verb)) :
    Settles serve (Looks t id read verb v) (get >>= g) env := by
  obtain ⟨found, hcall, hfound⟩ := hget
  rw [hcall]
  refine .here ⟨henv 0, _, rfl, fun raw y hrel => ⟨fun hy => ?_, fun hy => ?_⟩⟩
  · rw [hfound raw y hrel]
    exact haccepts y hy
  · rw [hfound raw y hrel]
    exact .here (hrejects y hy)

end Programs

end VaultsSyncer
