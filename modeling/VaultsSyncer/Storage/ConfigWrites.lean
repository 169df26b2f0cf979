import VaultsSyncer.Config.Persisted
import VaultsSyncer.Storage.Configuration

/-! The four writes of the config store, as data: what each makes of the stored configuration, and so
    what any sequence of them leaves to be read (`reads_after_writes`). -/

namespace VaultsSyncer

open GoStd Schemes Schemes.Prog

inductive ConfigWrite where
  | saveVault (v : VaultConfig)
  | deleteVault (id : String)
  | saveSync (sc : SyncConfig)
  | deleteSync (id : String)

/-- The call of the store. -/
def ConfigWrite.program (s : ConfigStore) : ConfigWrite → Db (Except GoError Unit)
  | .saveVault v => s.saveVault v
  | .deleteVault id => ConfigStore.deleteVault id
  | .saveSync sc => ConfigStore.saveSync sc
  | .deleteSync id => ConfigStore.deleteSync id

/-- What it makes of the stored configuration. -/
def ConfigWrite.change : ConfigWrite → References.Change String VaultConfig SyncConfig
  | .saveVault v => .putNode v.id v.reread
  | .deleteVault id => .dropNode id
  | .saveSync sc => .putLink sc.id sc.reread
  | .deleteSync id => .dropLink id

/-! ### Programs on a working database -/

/-- What every call keeps of the surroundings, a program does. -/
theorem run_surroundings {α : Type} {I : Surroundings → Prop}
    (hI : ∀ op env db, I env → I (serve op (env, db)).2.1) (p : Db α) {env : Surroundings} (h : I env)
    (db : Database) : I (p.run serve (env, db)).2.1 :=
  (allCalls_true p).run_preserves serve (I := fun x => I x.1) (fun op x _ hx => hI op x.1 x.2 hx) h

theorem Surroundings.Works.run {α : Type} (p : Db α) {env : Surroundings} (h : env.Works)
    (db : Database) : (p.run serve (env, db)).2.1.Works := by
  refine run_surroundings ?_ p h db
  intro op env db h
  have hhead : env.faults.head = none := h 0
  cases op with
  | sql s =>
    simp only [serve, hhead]
    exact h.next
  | rowsAffected n =>
    simp only [serve, hhead]
    exact h.next
  | now => exact h
  | randRead n => exact h

/-- Every draw of random bytes succeeds. -/
def Surroundings.Draws (env : Surroundings) : Prop := ∀ n, ∃ b, env.random.get n = .ok b

theorem Surroundings.Draws.run {α : Type} (p : Db α) {env : Surroundings} (h : env.Draws)
    (db : Database) : (p.run serve (env, db)).2.1.Draws := by
  refine run_surroundings ?_ p h db
  intro op env db h
  cases op with
  | sql s =>
    simp only [serve]
    split <;> exact h
  | rowsAffected n =>
    simp only [serve]
    split <;> exact h
  | now => exact h
  | randRead n => exact fun n => h (n + 1)

namespace ConfigStore

variable {s : ConfigStore} {db : Database} {env : Surroundings}

theorem run_upsertConfigRow (h : env.Works) (t : ConfigTable) (id json : String) :
    ((upsertConfigRow t id json).run serve (env, db)).1 = .ok () := by
  rw [upsertConfigRow, run_bind, run_now]
  dsimp only
  rw [run_bind, run_exec h.tick]
  have hval : ((Stmt.updateConfig t id json env.clock.head).exec db).1 = .ok ((db.config t).affected id) :=
    rfl
  have htext := @text_update db t id json env.clock.head id t
  simp only [hval, Except.mapError]
  generalize ((Stmt.updateConfig t id json env.clock.head).exec db).2 = db₁ at htext
  rw [run_bind, run_rowsAffected h.tick.next]
  dsimp only
  split_ifs with hzero
  · -- no row was met, and the update has made none
    have hnone : db.text t id = none := by
      rw [Database.text, Table.Keyed.affected_eq_zero.mp hzero]
      rfl
    have hfree : (db₁.config t).lookup id = none := by
      rw [if_pos ⟨rfl, rfl⟩, hnone] at htext
      exact Option.map_eq_none_iff.mp htext
    rw [run_exec h.tick.next.next]
    simp only [Stmt.exec, hfree, ↓reduceDIte, Except.mapError]
  · rfl

theorem run_getConfigJSON (t : ConfigTable) (id : String) (env : Surroundings) (db : Database) :
    ((getConfigJSON t id).run serve (env, db)).1 =
      match env.faults.head with
      | some err => .error (.wrap ("storage: getConfigJSON " ++ t.name ++ ": ") err)
      | none => .ok ((db.text t id).getD "") := by
  simp only [getConfigJSON, Db.exec, perform_bind, pure_eq, run_call, run_ret, run_bind, serve]
  rcases env.faults.head with _ | err <;> rfl

/-! ### Reads -/

theorem run_getVault (id : String) (env : Surroundings) (db : Database) :
    ((s.getVault id).run serve (env, db)).1 =
      ((getConfigJSON .vaults id).run serve (env, db)).1 >>= fun raw =>
        if raw = "" then .ok none else (s.readVault "storage: GetVault unmarshal: " raw).map some := by
  rw [getVault, run_bind]
  generalize (getConfigJSON .vaults id).run serve (env, db) = x
  obtain ⟨err | raw, env₁, db₁⟩ := x
  · rfl
  · dsimp only
    split_ifs with hraw
    · exact (if_pos hraw).symm
    · exact (if_neg hraw).symm

theorem run_getSync (id : String) (env : Surroundings) (db : Database) :
    ((s.getSync id).run serve (env, db)).1 =
      ((getConfigJSON .syncs id).run serve (env, db)).1 >>= fun raw =>
        if raw = "" then .ok none else (s.readSync "storage: GetSync unmarshal: " raw).map some := by
  rw [getSync, run_bind]
  generalize (getConfigJSON .syncs id).run serve (env, db) = x
  obtain ⟨err | raw, env₁, db₁⟩ := x
  · rfl
  · dsimp only
    split_ifs with hraw
    · exact (if_pos hraw).symm
    · exact (if_neg hraw).symm

/-- A read by id of a text that reads. -/
theorem read_of_rel {α : Type} {read : String → String → Except GoError α}
    (hempty : ∀ pre a, read pre "" ≠ .ok a) {raw : Option String} {a : Option α}
    (h : Option.Rel (fun raw a => ∀ pre, read pre raw = .ok a) raw a) (pre : String) :
    (if raw.getD "" = "" then .ok none else (read pre (raw.getD "")).map some) =
      (.ok a : Except GoError (Option α)) := by
  cases h with
  | none => rfl
  | @some raw a hread =>
    have hraw : raw ≠ "" := by
      rintro rfl
      exact hempty "" a (hread "")
    simp [hraw, hread, Except.map]

theorem readVault_empty (pre : String) (v : VaultConfig) : s.readVault pre "" ≠ .ok v := by
  have hnone : VaultConfig.codec.unmarshal "" = none := by decide +kernel
  rw [readVault, hnone]
  intro h
  cases h

theorem readSync_empty (pre : String) (sc : SyncConfig) : s.readSync pre "" ≠ .ok sc := by
  have hnone : SyncConfig.codec.unmarshal "" = none := by decide +kernel
  rw [readSync, hnone]
  intro h
  cases h

theorem Sound.run_getVault (hs : s.Sound db) (henv : env.Works) (id : String) :
    ((s.getVault id).run serve (env, db)).1 = .ok ((s.graph db).nodes id) := by
  have hhead : env.faults.head = none := henv 0
  rw [ConfigStore.run_getVault, run_getConfigJSON, hhead]
  exact read_of_rel readVault_empty (hs.vaults.rel id) _

theorem Sound.run_getSync (hs : s.Sound db) (henv : env.Works) (id : String) :
    ((s.getSync id).run serve (env, db)).1 = .ok ((s.graph db).links id) := by
  have hhead : env.faults.head = none := henv 0
  rw [ConfigStore.run_getSync, run_getConfigJSON, hhead]
  exact read_of_rel readSync_empty (hs.syncs.rel id) _

/-- Under one id there is what is stored under it, once. -/
theorem filter_loaded {α : Type} {key : α → String} {f : String → Option α} {l : List α}
    (hkeys : (l.map key).Nodup) (hmem : ∀ a, a ∈ l ↔ f (key a) = some a)
    (hkey : ∀ k a, f k = some a → key a = k) (k : String) :
    (l.filter fun a => key a = k) = (f k).toList := by
  rw [Table.filter_eq_toList hkeys]
  congr 1
  ext a
  rw [Table.lookup_eq_some_iff hkeys, hmem]
  constructor
  · rintro ⟨ha, rfl⟩
    exact ha
  · intro ha
    obtain rfl := hkey k a ha
    exact ⟨ha, rfl⟩

theorem map_key_of_mapM {ρ α ε : Type} {json : ρ → String} {read : String → Except ε α}
    (id : ρ → String) (key : α → String) : ∀ {rows : List ρ} {out : List α},
    (∀ r ∈ rows, ∃ a, key a = id r ∧ read (json r) = .ok a) → (rows.map json).mapM read = .ok out →
      out.map key = rows.map id
  | [], out, _, h => by
      obtain rfl : [] = out := by simpa [pure, Except.pure] using h
      rfl
  | r :: rows, out, hread, h => by
      obtain ⟨a, hkey, ha⟩ := hread r List.mem_cons_self
      rw [List.map_cons, List.mapM_cons, ha] at h
      rcases hrest : (rows.map json).mapM read with err | rest
      · rw [hrest] at h
        cases h
      rw [hrest] at h
      obtain rfl : a :: rest = out := Except.ok.inj h
      have htail := map_key_of_mapM id key (fun r' hr' => hread r' (List.mem_cons_of_mem _ hr')) hrest
      rw [List.map_cons, List.map_cons, hkey, htail]

theorem nodup_of_mapM {α : Type} {key : α → String} {read : String → String → Except GoError α}
    {t : ConfigTable} (h : Legible read key (db.text t)) {pre : String} {out : List α}
    (hout : (db.texts t).mapM (read pre) = .ok out) : (out.map key).Nodup := by
  have hperm : (byCreation ConfigRow.createdAt (db.config t).rows).Perm (db.config t).rows :=
    List.perm_insertionSort _ _
  have hkeys := map_key_of_mapM ConfigRow.id key ?_ hout
  · rw [hkeys]
    exact (hperm.map ConfigRow.id).nodup_iff.mpr (db.config t).keys_nodup
  · intro r hr
    have hlookup : (db.config t).lookup r.id = some r :=
      Table.Keyed.lookup_eq_some_iff.mpr ⟨hperm.mem_iff.mp hr, rfl⟩
    obtain ⟨a, hkey, hread⟩ := h r.id r.configJSON (by rw [Database.text, hlookup]; rfl)
    exact ⟨a, hkey, hread pre⟩

/-! ### Writes -/

theorem encryptString_draws (e : Encryptor) (h : env.Draws) (plaintext : String) (db : Database) :
    ∃ nonce, (e.encryptString plaintext).run serve (env, db) =
      (.ok (e.encrypt nonce plaintext), env.drawn, db) := by
  obtain ⟨b, hb⟩ := h 0
  have hhead : env.random.head = .ok b := hb
  refine ⟨takeBytes 12 b, ?_⟩
  rw [Encryptor.encryptString, run_bind, run_randRead, hhead]
  rfl

theorem encryptHeaders_draws (e : Encryptor) (db : Database) : ∀ (headers : List (String × String))
    {env : Surroundings}, env.Draws →
      ∃ out, ((encryptHeaders e headers).run serve (env, db)).1 = .ok out
  | [], _, _ => ⟨[], rfl⟩
  | (k, val) :: headers, env, h => by
      obtain ⟨nonce, hrun⟩ := encryptString_draws e h val db
      have hdrawn : env.drawn.Draws := fun n => h (n + 1)
      obtain ⟨out, hout⟩ := encryptHeaders_draws e db headers hdrawn
      rw [encryptHeaders, run_bind, hrun]
      dsimp only
      rw [run_bind]
      generalize (encryptHeaders e headers).run serve (env.drawn, db) = x at hout
      obtain ⟨_, env₁, db₁⟩ := x
      subst hout
      exact ⟨_, rfl⟩

theorem encryptVaultAuth_draws (e : Encryptor) (h : env.Draws) (v : VaultConfig) (db : Database) :
    ∃ raw, ((encryptVaultAuth e v).run serve (env, db)).1 = .ok raw := by
  rw [encryptVaultAuth]
  rcases v.auth with _ | auth
  · exact ⟨v, rfl⟩
  dsimp only
  rw [run_bind]
  obtain ⟨out, hout⟩ := encryptHeaders_draws e db auth.headers h
  have hdraws := h.run (encryptHeaders e auth.headers) db
  generalize (encryptHeaders e auth.headers).run serve (env, db) = x at hout hdraws
  obtain ⟨_, env₁, db₁⟩ := x
  subst hout
  dsimp only
  rw [run_bind]
  rcases auth.oauth with _ | oauth
  · exact ⟨_, rfl⟩
  rw [encryptOAuth]
  split_ifs
  · exact ⟨_, rfl⟩
  · obtain ⟨nonce, hrun⟩ := encryptString_draws e hdraws oauth.clientSecret db₁
    rw [run_bind, hrun]
    exact ⟨_, rfl⟩

/-- On a working database a write returns nil or changes nothing, and it returns nil where every
    draw succeeds. -/
theorem run_write (henv : env.Works) (w : ConfigWrite) :
    (((w.program s).run serve (env, db)).1 = .ok () ∨
      ¬env.Draws ∧ ((w.program s).run serve (env, db)).2.2 = db) := by
  cases w with
  | saveVault v =>
    rw [ConfigWrite.program, saveVault]
    rcases s.encryptor with _ | e
    · exact .inl (run_upsertConfigRow henv _ _ _)
    dsimp only
    rw [run_bind]
    have hsame := run_keeps (p := fun _ => False) id (fun _ _ h => h.elim)
      (allCalls_encryptVaultAuth e v) env db
    have hworks := henv.run (encryptVaultAuth e v) db
    have hdraws : env.Draws → ∃ raw, ((encryptVaultAuth e v).run serve (env, db)).1 = .ok raw :=
      fun h => encryptVaultAuth_draws e h v db
    generalize (encryptVaultAuth e v).run serve (env, db) = x at hsame hworks hdraws
    obtain ⟨err | raw, env₁, db₁⟩ := x
    · refine .inr ⟨fun h => ?_, hsame⟩
      obtain ⟨raw, hraw⟩ := hdraws h
      cases hraw
    · exact .inl (run_upsertConfigRow hworks _ _ _)
  | deleteVault id =>
    refine .inl ?_
    rw [ConfigWrite.program, deleteVault, run_exec henv]
    rfl
  | saveSync sc => exact .inl (run_upsertConfigRow henv _ _ _)
  | deleteSync id =>
    refine .inl ?_
    rw [ConfigWrite.program, deleteSync, run_exec henv]
    rfl

/-- A write that returns nil makes its change. -/
theorem Sound.write (hs : s.Sound db) {w : ConfigWrite} {env' : Surroundings} {db' : Database}
    (h : (w.program s).run serve (env, db) = (.ok (), env', db')) :
    s.Sound db' ∧ s.graph db' = (s.graph db).apply w.change := by
  cases w with
  | saveVault v => exact sound_saveVault hs h
  | deleteVault id => exact sound_deleteVault hs h
  | saveSync sc => exact sound_saveSync hs h
  | deleteSync id => exact sound_deleteSync hs h

end ConfigStore

/-! ### Other rows -/

/-- The row that a write is about. -/
def ConfigWrite.row : ConfigWrite → ConfigTable × String
  | .saveVault v => (.vaults, v.id)
  | .deleteVault id => (.vaults, id)
  | .saveSync sc => (.syncs, sc.id)
  | .deleteSync id => (.syncs, id)

theorem text_insert_ne {db : Database} {t t' : ConfigTable} {id k : String} (h : ¬(t' = t ∧ k = id))
    (json : String) (now : ℤ) :
    ((Stmt.insertConfig t id json now).exec db).2.text t' k = db.text t' k := by
  by_cases hfree : db.text t id = none
  · rw [text_insert hfree, if_neg h]
  · have htaken : (db.config t).lookup id ≠ none := mt (fun hnone => by
      rw [Database.text, hnone]; rfl) hfree
    simp only [Stmt.exec, htaken, ↓reduceDIte]

/-- Whether it goes through or not, a write leaves the other rows alone. -/
theorem ConfigWrite.text_kept (s : ConfigStore) {w : ConfigWrite} {t : ConfigTable} {k : String}
    (h : w.row ≠ (t, k)) (env : Surroundings) (db : Database) :
    ((w.program s).run serve (env, db)).2.2.text t k = db.text t k := by
  refine run_keeps (p := fun st => ∀ db : Database, (st.exec db).2.text t k = db.text t k)
    (fun db => db.text t k) (fun st d hst => hst d) ?_ env db
  have hne : ∀ {t' id}, w.row = (t', id) → ¬(t = t' ∧ k = id) := by
    rintro t' id hrow ⟨rfl, rfl⟩
    exact h hrow
  cases w with
  | saveVault v =>
    exact allCalls_saveVault (fun _ _ _ => by rw [text_update, if_neg (hne rfl)])
      fun _ _ _ => text_insert_ne (hne rfl) _ _
  | deleteVault id => exact allCalls_exec fun _ => by rw [text_delete, if_neg (hne rfl)]
  | saveSync sc =>
    exact allCalls_upsertConfigRow (fun _ _ => by rw [text_update, if_neg (hne rfl)])
      fun _ _ => text_insert_ne (hne rfl) _ _
  | deleteSync id => exact allCalls_exec fun _ => by rw [text_delete, if_neg (hne rfl)]

/-! ### Sequences of writes -/

/-- What was saved last under the id of a vault, and not deleted since. -/
def lastVault (id : String) (ws : List ConfigWrite) : Option VaultConfig :=
  ws.foldl (fun last w => match w with
    | .saveVault v => if v.id = id then some v else last
    | .deleteVault k => if k = id then none else last
    | _ => last) none

/-- What was saved last under the id of a sync, and not deleted since. -/
def lastSync (id : String) (ws : List ConfigWrite) : Option SyncConfig :=
  ws.foldl (fun last w => match w with
    | .saveSync sc => if sc.id = id then some sc else last
    | .deleteSync k => if k = id then none else last
    | _ => last) none

/-- The value written is one as Go builds it. -/
def ConfigWrite.Built : ConfigWrite → Prop
  | .saveVault v => v.Built
  | .saveSync sc => sc.Built
  | _ => True

/-- A database, and the writes that have returned nil on the way to it. -/
structure Played where
  db : Database := .empty
  done : List ConfigWrite := []

/-- One more call, in its surroundings. -/
def Played.next (s : ConfigStore) (p : Played) (c : ConfigWrite × Surroundings) : Played :=
  match (c.1.program s).run serve (c.2, p.db) with
  | (.ok (), _, db) => ⟨db, p.done ++ [c.1]⟩
  | (.error _, _, db) => ⟨db, p.done⟩

/-- The calls one after another, from an empty database. -/
def played (s : ConfigStore) (cs : List (ConfigWrite × Surroundings)) : Played :=
  cs.foldl (Played.next s) {}

/-- The store holds what was saved last. -/
structure Played.Holds (s : ConfigStore) (p : Played) : Prop where
  sound : s.Sound p.db
  vaults : ∀ id, Option.Rel VaultConfig.KeptIn (lastVault id p.done) ((s.graph p.db).nodes id)
  syncs : ∀ id, (s.graph p.db).links id = lastSync id p.done

theorem lastVault_concat (id : String) (ws : List ConfigWrite) (w : ConfigWrite) :
    lastVault id (ws ++ [w]) = match w with
      | .saveVault v => if v.id = id then some v else lastVault id ws
      | .deleteVault k => if k = id then none else lastVault id ws
      | _ => lastVault id ws := by
  rw [lastVault, List.foldl_append]
  rfl

theorem lastSync_concat (id : String) (ws : List ConfigWrite) (w : ConfigWrite) :
    lastSync id (ws ++ [w]) = match w with
      | .saveSync sc => if sc.id = id then some sc else lastSync id ws
      | .deleteSync k => if k = id then none else lastSync id ws
      | _ => lastSync id ws := by
  rw [lastSync, List.foldl_append]
  rfl

/-- A change to the graph does to each id what the write does to what was saved last. -/
theorem kept_apply {g : References.Graph String VaultConfig SyncConfig} {ws : List ConfigWrite}
    (hvaults : ∀ id, Option.Rel VaultConfig.KeptIn (lastVault id ws) (g.nodes id))
    (hsyncs : ∀ id, g.links id = lastSync id ws) {w : ConfigWrite} (hw : w.Built) (id : String) :
    Option.Rel VaultConfig.KeptIn (lastVault id (ws ++ [w])) ((g.apply w.change).nodes id) ∧
      (g.apply w.change).links id = lastSync id (ws ++ [w]) := by
  rw [lastVault_concat, lastSync_concat]
  cases w with
  | saveVault v =>
    refine ⟨?_, hsyncs id⟩
    rcases eq_or_ne v.id id with rfl | hne
    · simp only [ConfigWrite.change, References.Graph.nodes_putNode_self, ↓reduceIte]
      exact .some (VaultConfig.keptIn_reread hw)
    · simpa [ConfigWrite.change, References.Graph.apply, hne, Function.update_of_ne hne.symm]
        using hvaults id
  | deleteVault k =>
    refine ⟨?_, hsyncs id⟩
    rcases eq_or_ne k id with rfl | hne
    · simp [ConfigWrite.change, References.Graph.apply]
    · simpa [ConfigWrite.change, References.Graph.apply, hne, Function.update_of_ne hne.symm]
        using hvaults id
  | saveSync sc =>
    refine ⟨hvaults id, ?_⟩
    rcases eq_or_ne sc.id id with rfl | hne
    · simp [ConfigWrite.change, References.Graph.apply, SyncConfig.reread_eq hw]
    · simp [ConfigWrite.change, References.Graph.apply, hne, Function.update_of_ne hne.symm, hsyncs]
  | deleteSync k =>
    refine ⟨hvaults id, ?_⟩
    rcases eq_or_ne k id with rfl | hne
    · simp [ConfigWrite.change, References.Graph.apply]
    · simp [ConfigWrite.change, References.Graph.apply, hne, Function.update_of_ne hne.symm, hsyncs]

theorem Played.holds_init (s : ConfigStore) : Played.Holds s {} where
  sound := s.sound_empty
  vaults := fun _ => .none
  syncs := fun _ => rfl

theorem Played.holds_next {s : ConfigStore} {p : Played} (h : p.Holds s)
    {c : ConfigWrite × Surroundings} (hworks : c.2.Works) (hbuilt : c.1.Built) :
    (p.next s c).Holds s ∧ (c.2.Draws → (p.next s c).done = p.done ++ [c.1]) := by
  have hwrite := @ConfigStore.run_write s p.db c.2 hworks c.1
  rw [Played.next]
  rcases hrun : (c.1.program s).run serve (c.2, p.db) with ⟨err | _, env', db'⟩
  · rw [hrun] at hwrite
    obtain ⟨hdraws, rfl⟩ : ¬c.2.Draws ∧ db' = p.db := by simpa using hwrite
    exact ⟨h, fun hd => absurd hd hdraws⟩
  · obtain ⟨hsound, hgraph⟩ := h.sound.write hrun
    refine ⟨⟨hsound, fun id => ?_, fun id => ?_⟩, fun _ => rfl⟩
    · exact hgraph ▸ (kept_apply h.vaults h.syncs hbuilt id).1
    · exact hgraph ▸ (kept_apply h.vaults h.syncs hbuilt id).2

theorem Played.holds_foldl {s : ConfigStore} {cs : List (ConfigWrite × Surroundings)} {p : Played}
    (h : p.Holds s) (hcs : ∀ c ∈ cs, c.2.Works ∧ c.1.Built) :
    (cs.foldl (Played.next s) p).Holds s ∧
      ((∀ c ∈ cs, c.2.Draws) → (cs.foldl (Played.next s) p).done = p.done ++ cs.map Prod.fst) := by
  induction cs generalizing p with
  | nil => exact ⟨h, fun _ => (List.append_nil _).symm⟩
  | cons c cs ih =>
    obtain ⟨hworks, hbuilt⟩ := hcs c List.mem_cons_self
    obtain ⟨hnext, hdone⟩ := Played.holds_next h hworks hbuilt
    obtain ⟨hlast, hrest⟩ := ih hnext fun c' hc' => hcs c' (List.mem_cons_of_mem _ hc')
    refine ⟨hlast, fun hdraws => ?_⟩
    rw [List.foldl_cons, hrest fun c' hc' => hdraws c' (List.mem_cons_of_mem _ hc'),
      hdone (hdraws c List.mem_cons_self), List.append_assoc]
    rfl

/-- What a load returns, once for each id. -/
theorem ConfigStore.Sound.filter_load {s : ConfigStore} {db : Database} (hs : s.Sound db) {cfg : Config}
    (h : s.Loads db cfg) (id : String) :
    (cfg.vaults.filter fun v => v.id = id) = ((s.graph db).nodes id).toList ∧
      (cfg.syncs.filter fun sc => sc.id = id) = ((s.graph db).links id).toList := by
  constructor
  · exact filter_loaded (nodup_of_mapM hs.vaults h.read.1) (fun _ => mem_vaults hs h)
      (fun _ _ => hs.node_id) id
  · exact filter_loaded (nodup_of_mapM hs.syncs h.read.2) (fun _ => mem_syncs hs h)
      (fun _ _ => hs.link_id) id

/-- After any sequence of writes, what was saved last under an id is what a read of that id returns, and
    a load has it once; and a write to one row changes no read of another. -/
theorem reads_after_writes (s : ConfigStore) (cs : List (ConfigWrite × Surroundings))
    (hcs : ∀ c ∈ cs, c.2.Works ∧ c.1.Built) :
    ((∀ c ∈ cs, c.2.Draws) → (played s cs).done = cs.map Prod.fst) ∧
    (∀ env, env.Works → ∃ cfg, (s.loadConfig.run serve (env, (played s cs).db)).1 = .ok cfg ∧ ∀ id,
      (∃ v, ((s.getVault id).run serve (env, (played s cs).db)).1 = .ok v ∧
        Option.Rel VaultConfig.KeptIn (lastVault id (played s cs).done) v ∧
        (cfg.vaults.filter fun v => v.id = id) = v.toList) ∧
      ∃ sc, ((s.getSync id).run serve (env, (played s cs).db)).1 = .ok sc ∧
        sc = lastSync id (played s cs).done ∧ (cfg.syncs.filter fun sc => sc.id = id) = sc.toList) ∧
    ∀ c env id,
      (c.1.row ≠ (.vaults, id) →
        ((s.getVault id).run serve (env, ((played s cs).next s c).db)).1 =
          ((s.getVault id).run serve (env, (played s cs).db)).1) ∧
      (c.1.row ≠ (.syncs, id) →
        ((s.getSync id).run serve (env, ((played s cs).next s c).db)).1 =
          ((s.getSync id).run serve (env, (played s cs).db)).1) := by
  obtain ⟨h, hdone⟩ := Played.holds_foldl (Played.holds_init s) hcs
  rw [← played] at h hdone
  generalize played s cs = p at h hdone ⊢
  refine ⟨hdone, fun env henv => ?_, fun c env id => ?_⟩
  · obtain ⟨cfg, hloads⟩ := h.sound.loads
    refine ⟨cfg, hloads.of_works henv, fun id => ?_⟩
    obtain ⟨hvaults, hsyncs⟩ := h.sound.filter_load hloads id
    exact ⟨⟨_, h.sound.run_getVault henv id, h.vaults id, hvaults⟩,
      ⟨_, h.sound.run_getSync henv id, h.syncs id, hsyncs⟩⟩
  · have hdb : (p.next s c).db = ((c.1.program s).run serve (c.2, p.db)).2.2 := by
      rw [Played.next]
      split <;> simp [*]
    rw [hdb, ConfigStore.run_getVault, ConfigStore.run_getVault, ConfigStore.run_getSync,
      ConfigStore.run_getSync]
    constructor
    · intro hrow
      rw [ConfigStore.run_getConfigJSON, ConfigStore.run_getConfigJSON, c.1.text_kept s hrow]
    · intro hrow
      rw [ConfigStore.run_getConfigJSON, ConfigStore.run_getConfigJSON, c.1.text_kept s hrow]

def tokenVault : VaultConfig :=
  { id := "a"
    auth := some
      { method := "oauth2", headers := [("X-Key", "k"), ("Accept", "")]
        oauth := some { clientSecret := "s3cret" } } }

def pausedSync : SyncConfig :=
  { id := "s", source := "a", targets := ["b"], retryPolicy := { multiplier := 1 }
    enabled := some false }

/-- Two vaults and a sync are saved, and one vault is deleted. -/
def savedAndDeleted : List (ConfigWrite × Surroundings) :=
  [(.saveVault tokenVault, {}), (.saveVault { id := "b" }, {}), (.saveSync pausedSync, {}),
    (.deleteVault "b", {})]

theorem reads_after_savedAndDeleted : ∃ v : VaultConfig, tokenVault.KeptIn v ∧
    (((ConfigStore.mk (some markingCipher) GoError.new).getVault "a").run serve
      ({}, (played ⟨some markingCipher, GoError.new⟩ savedAndDeleted).db)).1 = .ok (some v) ∧
    (((ConfigStore.mk (some markingCipher) GoError.new).getVault "b").run serve
      ({}, (played ⟨some markingCipher, GoError.new⟩ savedAndDeleted).db)).1 = .ok none ∧
    (((ConfigStore.mk (some markingCipher) GoError.new).getSync "s").run serve
      ({}, (played ⟨some markingCipher, GoError.new⟩ savedAndDeleted).db)).1 = .ok (some pausedSync) := by
  have hfloat : pausedSync.Built := ⟨Float64.one, by rw [Codec.floatValue, Float64.abs_one]; rfl⟩
  have hkeys : tokenVault.Built := by
    refine ⟨?_, by simp [DistinctKeys, tokenVault], by simp [DistinctKeys, tokenVault]⟩
    rintro a ⟨⟩
    refine ⟨by simp [DistinctKeys], ?_⟩
    rintro o ⟨⟩
    exact List.nodup_nil
  have hcs : ∀ c ∈ savedAndDeleted, c.2.Works ∧ c.1.Built := by
    intro c hc
    simp only [savedAndDeleted, List.mem_cons, List.not_mem_nil, or_false] at hc
    rcases hc with rfl | rfl | rfl | rfl
    · exact ⟨Surroundings.works_default, hkeys⟩
    · refine ⟨Surroundings.works_default, ?_, List.nodup_nil, ?_⟩
      · rintro a ⟨⟩
      · rintro m ⟨⟩
    · exact ⟨Surroundings.works_default, hfloat⟩
    · exact ⟨Surroundings.works_default, trivial⟩
  have hdraws : ∀ c ∈ savedAndDeleted, c.2.Draws := by
    intro c hc
    simp only [savedAndDeleted, List.mem_cons, List.not_mem_nil, or_false] at hc
    rcases hc with rfl | rfl | rfl | rfl <;> exact fun _ => ⟨[], rfl⟩
  obtain ⟨hdone, hread, -⟩ := reads_after_writes ⟨some markingCipher, GoError.new⟩ savedAndDeleted hcs
  obtain ⟨cfg, -, hread⟩ := hread {} Surroundings.works_default
  rw [hdone hdraws] at hread
  obtain ⟨v, hv, hkept, -⟩ := (hread "a").1
  obtain ⟨v', hv', hkept', -⟩ := (hread "b").1
  obtain ⟨sc, hsc, hlast, -⟩ := (hread "s").2
  have ha : lastVault "a" (savedAndDeleted.map Prod.fst) = some tokenVault := by
    simp [lastVault, savedAndDeleted, tokenVault]
  have hb : lastVault "b" (savedAndDeleted.map Prod.fst) = none := by
    simp [lastVault, savedAndDeleted, tokenVault]
  have hs : lastSync "s" (savedAndDeleted.map Prod.fst) = some pausedSync := by
    simp [lastSync, savedAndDeleted, pausedSync]
  rw [ha] at hkept
  rw [hb] at hkept'
  obtain ⟨hkept⟩ := hkept
  obtain ⟨⟩ := hkept'
  exact ⟨_, hkept, hv, hv', by rw [hsc, hlast, hs]⟩

end VaultsSyncer
