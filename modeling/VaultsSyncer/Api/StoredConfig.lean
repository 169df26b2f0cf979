import VaultsSyncer.Api.ConfigHandlers
import VaultsSyncer.Storage.Configuration

/-! What the requests make of the stored configuration. One that is accepted makes one change to the
    graph of vaults and syncs (`graph_of_accepted`); none of them looks at the references, so these
    stay intact exactly as long as the callers see to it (`references_intact_iff`). -/

namespace VaultsSyncer

open GoStd Schemes Schemes.Prog

/-! ### Accepted requests -/

/-- The program only replies with an error. -/
def Refuses (p : Db ApiReply) : Prop := ∃ message code, 300 ≤ code ∧ p = .ret (jsonError message code)

theorem Refuses.not_success {p : Db ApiReply} (hp : Refuses p) (x : Surroundings × Database) :
    ¬(p.run serve x).1.Success := by
  obtain ⟨message, code, hcode, rfl⟩ := hp
  exact jsonError_not_success message hcode

theorem refuses_jsonError (message : String) {code : ℕ} (h : 300 ≤ code) :
    Refuses (pure (jsonError message code)) := ⟨message, code, h, rfl⟩

/-- The program makes an operation on the store and replies: with an error where that has failed. -/
def EndsWith (q : Db (Except GoError Unit)) (p : Db ApiReply) : Prop :=
  ∃ g : Except GoError Unit → Db ApiReply, p = (q >>= g) ∧ (∀ err, Refuses (g (.error err))) ∧
    ∃ reply, g (.ok ()) = .ret reply

/-- The program makes the operation `q` at most: rows may be read first, and it may be refused. -/
inductive Handles (q : Db (Except GoError Unit)) : Db ApiReply → Prop
  | refuses {p} : Refuses p → Handles q p
  | ends {p} : EndsWith q p → Handles q p
  | reads {α : Type} {p : Db α} {f : α → Db ApiReply} :
      p.AllCalls (DbCall.Only fun r => r.Reads = true ∧ r.OnConfig = true) →
        (∀ a, Handles q (f a)) → Handles q (p >>= f)

section Handlers

variable {q : Db (Except GoError Unit)} {p : Db ApiReply} {db : Database}

theorem Handles.error (message : String) {code : ℕ} (h : 300 ≤ code) :
    Handles q (pure (jsonError message code)) := .refuses (refuses_jsonError message h)

theorem Handles.reply (message : String) {code : ℕ} (h : 300 ≤ code) (reply : ApiReply) :
    Handles q (do
      match ← q with
      | .error _ => return jsonError message code
      | .ok () => return reply) :=
  .ends ⟨_, rfl, fun _ => refuses_jsonError message h, reply, rfl⟩

/-- A success at the end means that the operation has gone through. -/
theorem EndsWith.run_of_success (hp : EndsWith q p) {env : Surroundings}
    (h : (p.run serve (env, db)).1.Success) :
    q.run serve (env, db) = (.ok (), (p.run serve (env, db)).2) := by
  obtain ⟨g, rfl, herr, reply, hreply⟩ := hp
  rw [run_bind] at h ⊢
  generalize q.run serve (env, db) = y at h ⊢
  obtain ⟨err | ⟨⟩, env', db'⟩ := y
  · exact absurd h ((herr err).not_success _)
  · rw [hreply, run_ret]

/-- So it does where rows are read before. -/
theorem Handles.run_of_success (hp : Handles q p) {env : Surroundings}
    (h : (p.run serve (env, db)).1.Success) :
    ∃ env', q.run serve (env', db) = (.ok (), (p.run serve (env, db)).2) := by
  induction hp generalizing env with
  | refuses hrefuses => exact absurd h (hrefuses.not_success _)
  | ends hends => exact ⟨env, hends.run_of_success h⟩
  | @reads _ p f hreads _ ih =>
    have hdb := run_reads (hreads.mono fun
      | .sql _, hop => hop.1
      | .rowsAffected _, _ | .now, _ | .randRead _, _ => trivial) env db
    rw [run_bind] at h ⊢
    generalize p.run serve (env, db) = y at h hdb ⊢
    obtain ⟨a, env', db'⟩ := y
    dsimp only at hdb
    subst hdb
    exact ih a h

theorem Handles.allCalls {P : DbCall → Prop} (hp : Handles q p) (hq : q.AllCalls P)
    (hP : ∀ op : DbCall, op.Only (fun r => r.Reads = true ∧ r.OnConfig = true) → P op) :
    p.AllCalls P := by
  induction hp with
  | refuses hrefuses =>
    obtain ⟨message, code, -, rfl⟩ := hrefuses
    trivial
  | ends hends =>
    obtain ⟨g, rfl, herr, reply, hreply⟩ := hends
    refine hq.bind ?_
    rintro (err | ⟨⟩)
    · obtain ⟨message, code, -, hg⟩ := herr err
      rw [hg]
      trivial
    · rw [hreply]
      trivial
  | reads hreads _ ih => exact (hreads.mono hP).bind ih

end Handlers

/-- The operation on the store that a request asks for. -/
def ConfigRequest.operation (s : ConfigStore) : ConfigRequest → Option (Db (Except GoError Unit))
  | .createVault body => body.map fun v => s.saveVault v
  | .updateVault id body => body.map fun v => s.saveVault { v with id := id }
  | .deleteVaultConfig id => some (ConfigStore.deleteVault id)
  | .createSync body => body.map fun sc => ConfigStore.saveSync sc
  | .updateSync id body => body.map fun sc => ConfigStore.saveSync { sc with id := id }
  | .deleteSyncConfig id => some (ConfigStore.deleteSync id)

/-- A handler refuses a body that does not decode, and else makes its operation at most. -/
theorem program_handles (s : ConfigStore) (r : ConfigRequest) :
    Refuses (r.program s) ∨ ∃ q, r.operation s = some q ∧ Handles q (r.program s) := by
  cases r with
  | createVault body =>
    rcases body with _ | v
    · exact .inl (refuses_jsonError _ (by decide))
    refine .inr ⟨_, rfl, ?_⟩
    simp only [ConfigRequest.program, ConfigHandler.createVault]
    split_ifs
    · exact .error _ (by decide)
    refine .reads (allCalls_getVault ⟨rfl, rfl⟩) ?_
    rintro (err | (_ | existing))
    · exact .error _ (by decide)
    · exact .reply _ (by decide) _
    · exact .error _ (by decide)
  | updateVault id body =>
    simp only [ConfigRequest.program, ConfigHandler.updateVault]
    split_ifs
    · exact .inl (refuses_jsonError _ (by decide))
    rcases body with _ | v
    · exact .inl (refuses_jsonError _ (by decide))
    refine .inr ⟨_, rfl, .reads (allCalls_getVault ⟨rfl, rfl⟩) ?_⟩
    rintro (err | (_ | existing))
    · exact .error _ (by decide)
    · exact .error _ (by decide)
    · exact .reply _ (by decide) _
  | deleteVaultConfig id =>
    simp only [ConfigRequest.program, ConfigHandler.deleteVaultConfig]
    split_ifs
    · exact .inl (refuses_jsonError _ (by decide))
    · exact .inr ⟨_, rfl, .reply _ (by decide) _⟩
  | createSync body =>
    rcases body with _ | sc
    · exact .inl (refuses_jsonError _ (by decide))
    refine .inr ⟨_, rfl, ?_⟩
    simp only [ConfigRequest.program, ConfigHandler.createSync]
    split_ifs
    · exact .error _ (by decide)
    refine .reads (allCalls_getSync ⟨rfl, rfl⟩) ?_
    rintro (err | (_ | existing))
    · exact .error _ (by decide)
    · exact .reply _ (by decide) _
    · exact .error _ (by decide)
  | updateSync id body =>
    simp only [ConfigRequest.program, ConfigHandler.updateSync]
    split_ifs
    · exact .inl (refuses_jsonError _ (by decide))
    rcases body with _ | sc
    · exact .inl (refuses_jsonError _ (by decide))
    refine .inr ⟨_, rfl, .reads (allCalls_getSync ⟨rfl, rfl⟩) ?_⟩
    rintro (err | (_ | existing))
    · exact .error _ (by decide)
    · exact .error _ (by decide)
    · exact .reply _ (by decide) _
  | deleteSyncConfig id =>
    simp only [ConfigRequest.program, ConfigHandler.deleteSyncConfig]
    split_ifs
    · exact .inl (refuses_jsonError _ (by decide))
    · exact .inr ⟨_, rfl, .reply _ (by decide) _⟩

/-- The change that a request asks for. -/
def ConfigRequest.change :
    ConfigRequest → Option (References.Change String VaultConfig SyncConfig)
  | .createVault body => body.map fun v => .putNode v.id v.reread
  | .updateVault id body => body.map fun v => .putNode id { v with id := id }.reread
  | .deleteVaultConfig id => some (.dropNode id)
  | .createSync body => body.map fun sc => .putLink sc.id sc.reread
  | .updateSync id body => body.map fun sc => .putLink id { sc with id := id }.reread
  | .deleteSyncConfig id => some (.dropLink id)

section Accepted

variable {s : ConfigStore} {env env' : Surroundings} {db db' : Database}

/-- An operation that goes through makes its change. -/
theorem graph_of_operation (hs : s.Sound db) {r : ConfigRequest} {q : Db (Except GoError Unit)}
    (hq : r.operation s = some q) (h : q.run serve (env, db) = (.ok (), env', db')) :
    s.Sound db' ∧ ∃ c, r.change = some c ∧ s.graph db' = (s.graph db).apply c := by
  cases r with
  | createVault body =>
    obtain ⟨v, rfl, rfl⟩ := Option.map_eq_some_iff.mp hq
    obtain ⟨hs', hgraph⟩ := ConfigStore.sound_saveVault hs h
    exact ⟨hs', _, rfl, hgraph⟩
  | updateVault id body =>
    obtain ⟨v, rfl, rfl⟩ := Option.map_eq_some_iff.mp hq
    obtain ⟨hs', hgraph⟩ := ConfigStore.sound_saveVault hs h
    exact ⟨hs', _, rfl, hgraph⟩
  | deleteVaultConfig id =>
    obtain rfl := Option.some.inj hq
    obtain ⟨hs', hgraph⟩ := ConfigStore.sound_deleteVault hs h
    exact ⟨hs', _, rfl, hgraph⟩
  | createSync body =>
    obtain ⟨sc, rfl, rfl⟩ := Option.map_eq_some_iff.mp hq
    obtain ⟨hs', hgraph⟩ := ConfigStore.sound_saveSync hs h
    exact ⟨hs', _, rfl, hgraph⟩
  | updateSync id body =>
    obtain ⟨sc, rfl, rfl⟩ := Option.map_eq_some_iff.mp hq
    obtain ⟨hs', hgraph⟩ := ConfigStore.sound_saveSync hs h
    exact ⟨hs', _, rfl, hgraph⟩
  | deleteSyncConfig id =>
    obtain rfl := Option.some.inj hq
    obtain ⟨hs', hgraph⟩ := ConfigStore.sound_deleteSync hs h
    exact ⟨hs', _, rfl, hgraph⟩

/-- What a request that is replied with a success has done. -/
theorem graph_of_accepted (hs : s.Sound db) {r : ConfigRequest}
    (h : ((r.program s).run serve (env, db)).1.Success) :
    s.Sound ((r.program s).run serve (env, db)).2.2 ∧ ∃ c, r.change = some c ∧
      s.graph ((r.program s).run serve (env, db)).2.2 = (s.graph db).apply c := by
  rcases program_handles s r with hrefuses | ⟨q, hq, hhandles⟩
  · exact absurd h (hrefuses.not_success _)
  · obtain ⟨env', hrun⟩ := hhandles.run_of_success h
    exact graph_of_operation hs hq hrun

end Accepted

/-! ### Runs of accepted requests -/

/-- The database after a request. -/
def configured (s : ConfigStore) (db : Database) (x : ConfigRequest × Surroundings) : Database :=
  ((x.1.program s).run serve (x.2, db)).2.2

/-- The request is replied with a success. -/
def Accepted (s : ConfigStore) (db : Database) (x : ConfigRequest × Surroundings) : Prop :=
  ((x.1.program s).run serve (x.2, db)).1.Success

instance (s : ConfigStore) (db : Database) (x : ConfigRequest × Surroundings) :
    Decidable (Accepted s db x) := inferInstanceAs (Decidable (ApiReply.Success _))

/-- The vaults that a sync refers to. -/
def SyncConfig.refs (sc : SyncConfig) : Set String := {x | x ∈ sc.source :: sc.targets}

/-- Every sync refers to vaults of the same configuration. -/
def Config.Resolved (cfg : Config) : Prop :=
  ∀ sc ∈ cfg.syncs, ∀ x ∈ sc.source :: sc.targets, ∃ v ∈ cfg.vaults, v.id = x

/-- The request leaves no sync with a reference to a vault that is not there. -/
def KeepsReferences (s : ConfigStore) (db : Database) : ConfigRequest × Surroundings → Prop
  | (.createSync (some sc), _) | (.updateSync _ (some sc), _) =>
    ∀ x ∈ sc.source :: sc.targets, (s.graph db).nodes x ≠ none
  | (.deleteVaultConfig id, _) =>
    ∀ k sc, (s.graph db).links k = some sc → id ∉ sc.source :: sc.targets
  | _ => True

section Runs

variable {s : ConfigStore} {db : Database}

theorem resolved_iff (hs : s.Sound db) :
    (∀ cfg, s.Loads db cfg → cfg.Resolved) ↔ (s.graph db).Intact SyncConfig.refs := by
  constructor
  · intro h k sc hlink x hx
    obtain ⟨cfg, hloads⟩ := hs.loads
    obtain rfl := hs.link_id hlink
    obtain ⟨v, hv, rfl⟩ := h cfg hloads sc ((ConfigStore.mem_syncs hs hloads).mpr hlink) x hx
    rw [(ConfigStore.mem_vaults hs hloads).mp hv]
    exact Option.some_ne_none v
  · intro h cfg hloads sc hsc x hx
    have hnode := h sc.id sc ((ConfigStore.mem_syncs hs hloads).mp hsc) x hx
    obtain ⟨v, hv⟩ := Option.ne_none_iff_exists'.mp hnode
    obtain rfl := hs.node_id hv
    exact ⟨v, (ConfigStore.mem_vaults hs hloads).mpr hv, rfl⟩

theorem keepsReferences_iff (x : ConfigRequest × Surroundings) :
    KeepsReferences s db x ↔
      ∀ c, x.1.change = some c → (s.graph db).KeptBy SyncConfig.refs c := by
  obtain ⟨r, env⟩ := x
  cases r with
  | createVault body => cases body <;> simp [KeepsReferences, ConfigRequest.change, References.Graph.KeptBy]
  | updateVault id body =>
    cases body <;> simp [KeepsReferences, ConfigRequest.change, References.Graph.KeptBy]
  | deleteVaultConfig id =>
    simp [KeepsReferences, ConfigRequest.change, References.Graph.KeptBy, SyncConfig.refs]
  | createSync body =>
    cases body <;>
      simp [KeepsReferences, ConfigRequest.change, References.Graph.KeptBy, SyncConfig.refs]
  | updateSync id body =>
    cases body <;>
      simp [KeepsReferences, ConfigRequest.change, References.Graph.KeptBy, SyncConfig.refs]
  | deleteSyncConfig id => simp [KeepsReferences, ConfigRequest.change, References.Graph.KeptBy]

/-- An accepted request keeps the store sound and makes its change. -/
theorem graph_step {x : ConfigRequest × Surroundings} (hs : s.Sound db) (h : Accepted s db x) :
    s.Sound (configured s db x) ∧ ∃ c, x.1.change = some c ∧
      s.graph (configured s db x) = (s.graph db).apply c := graph_of_accepted hs h

theorem always_sound {rs : List (ConfigRequest × Surroundings)} (hs : s.Sound db)
    (h : Runs.Each (configured s) (Accepted s) db rs) : Runs.Always (configured s) s.Sound db rs :=
  h.always (fun _ _ hs hok => (graph_step hs hok).1) hs

/-- The graph after a run of accepted requests. -/
theorem graph_configured : ∀ {rs : List (ConfigRequest × Surroundings)} {db : Database}, s.Sound db →
    Runs.Each (configured s) (Accepted s) db rs → s.graph (rs.foldl (configured s) db) =
      (rs.filterMap fun x => x.1.change).foldl References.Graph.apply (s.graph db)
  | [], _, _, _ => rfl
  | x :: rs, db, hs, h => by
      obtain ⟨hs', c, hchange, hgraph⟩ := graph_step hs h.1
      rw [List.foldl_cons, graph_configured hs' h.2, List.filterMap_cons, hchange, List.foldl_cons,
        hgraph]

variable (s) in
/-- The references of the stored syncs stay intact exactly as long as each request leaves them so. -/
theorem references_intact_iff (rs : List (ConfigRequest × Surroundings))
    (h : Runs.Each (configured s) (Accepted s) .empty rs) :
    Runs.Always (configured s) (fun db => ∀ cfg, s.Loads db cfg → cfg.Resolved) .empty rs ↔
      Runs.Each (configured s) (KeepsReferences s) .empty rs := by
  have hsound := s.sound_empty
  calc Runs.Always (configured s) (fun db => ∀ cfg, s.Loads db cfg → cfg.Resolved) .empty rs
      ↔ Runs.Always (configured s) (fun db => (s.graph db).Intact SyncConfig.refs) .empty rs :=
        Runs.Always.congr (fun _ => resolved_iff) (always_sound hsound h)
    _ ↔ Runs.Each (configured s) (fun db x => ∀ c, x.1.change = some c →
          (s.graph db).KeptBy SyncConfig.refs c) .empty rs :=
        References.always_intact_iff (fun _ _ => graph_step) hsound References.Graph.intact_empty h
    _ ↔ Runs.Each (configured s) (KeepsReferences s) .empty rs :=
        Runs.each_congr fun db x => (keepsReferences_iff x).symm

end Runs

/-- Two vaults and a sync from one to the other. -/
def configurePair : List (ConfigRequest × Surroundings) :=
  [(.createVault (some { id := "a", endpoint := "https://a" }), {}),
    (.createVault (some { id := "b", endpoint := "https://b" }), {}),
    (.createSync (some { id := "s", source := "a", targets := ["b"] }), {})]

theorem references_intact_pair :
    Runs.Always (configured {}) (fun db => ∀ cfg, ConfigStore.Loads {} db cfg → cfg.Resolved) .empty
      configurePair := by
  have haccepted : Runs.Each (configured {}) (Accepted {}) .empty configurePair := by
    refine ⟨?_, ?_, ?_, trivial⟩ <;> decide +kernel
  have hgraph : ConfigStore.graph {} ((configurePair.take 2).foldl (configured {}) .empty) = _ :=
    graph_configured (ConfigStore.sound_empty {}) ⟨haccepted.1, haccepted.2.1, trivial⟩
  refine (references_intact_iff {} configurePair haccepted).mpr ⟨trivial, trivial, ?_, trivial⟩
  change ∀ x ∈ ["a", "b"], (ConfigStore.graph {} ((configurePair.take 2).foldl (configured {})
    Database.empty)).nodes x ≠ none
  rw [hgraph]
  decide

/-- A vault deleted under the sync that refers to it. -/
def deletedUnderSync : List (ConfigRequest × Surroundings) :=
  [(.createVault (some { id := "a", endpoint := "https://a" }), {}),
    (.createVault (some { id := "b", endpoint := "https://b" }), {}),
    (.createSync (some { id := "s", source := "a", targets := ["b"] }), {}),
    (.deleteVaultConfig "b", {})]

theorem referenced_vault_deleted :
    Runs.Each (configured {}) (Accepted {}) .empty deletedUnderSync ∧
      ¬Runs.Always (configured {}) (fun db => ∀ cfg, ConfigStore.Loads {} db cfg → cfg.Resolved) .empty
        deletedUnderSync := by
  have haccepted : Runs.Each (configured {}) (Accepted {}) .empty deletedUnderSync := by
    refine ⟨?_, ?_, ?_, ?_, trivial⟩ <;> decide +kernel
  refine ⟨haccepted, fun h => ?_⟩
  have hsound := (always_sound (ConfigStore.sound_empty {}) haccepted).foldl
  have hintact := (resolved_iff hsound).mp h.foldl
  rw [graph_configured (ConfigStore.sound_empty {}) haccepted] at hintact
  exact hintact "s" _ rfl "b" (List.mem_cons_of_mem _ List.mem_cons_self) rfl

end VaultsSyncer
