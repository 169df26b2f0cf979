import Mathlib.Data.Fin.VecNotation
import Mathlib.Tactic.FinCases
import VaultsSyncer.Api.RowRequests

/-! Config requests on one id, side by side, one store statement at a time. A create or an update looks
    whether the row is there, and saves it by an UPDATE and then an INSERT; a delete is one statement.
    In between, other requests may make or take the row, so that not all runs are as some order of the
    requests: just when they are is `config_linearizable_iff`. -/

namespace VaultsSyncer

open GoStd Schemes Schemes.Prog Schemes.Phases Schemes.Linearize

/-! ### Requests on a vault, and on a sync -/

namespace ConfigRequest

/-- What the request asks of the row of its vault. -/
def vaultRequest : ConfigRequest → OneKey.Request VaultConfig
  | .createVault (some v) => if v.id = "" then .refused else .save .create v.reread
  | .updateVault id (some v) =>
    if id = "" then .refused else .save .update (VaultConfig.reread { v with id := id })
  | .deleteVaultConfig id => if id = "" then .refused else .delete
  | _ => .refused

/-- What the request asks of the row of its sync. -/
def syncRequest : ConfigRequest → OneKey.Request SyncConfig
  | .createSync (some sc) => if sc.id = "" then .refused else .save .create sc.reread
  | .updateSync id (some sc) =>
    if id = "" then .refused else .save .update (SyncConfig.reread { sc with id := id })
  | .deleteSyncConfig id => if id = "" then .refused else .delete
  | _ => .refused

/-- A request for the vault of the id; a body without an id is for none. -/
def OnVault (id : String) : ConfigRequest → Prop
  | .createVault body => ∀ v, body = some v → v.id = "" ∨ v.id = id
  | .updateVault k _ | .deleteVaultConfig k => k = id
  | _ => False

/-- A request for the sync of the id. -/
def OnSync (id : String) : ConfigRequest → Prop
  | .createSync body => ∀ sc, body = some sc → sc.id = "" ∨ sc.id = id
  | .updateSync k _ | .deleteSyncConfig k => k = id
  | _ => False

end ConfigRequest

theorem vault_settles (s : ConfigStore) {env : Surroundings} (henv : env.Works) (hdraws : env.Draws)
    {id : String} {r : ConfigRequest} (hon : r.OnVault id) :
    Settles serve (RequestAt .vaults id s.readVault r.vaultRequest r.vaultRequest.first) (r.program s)
      env := by
  cases r with
  | createVault body =>
    rcases body with _ | v
    · exact .here ⟨_, rfl, rfl⟩
    simp only [ConfigRequest.program, ConfigHandler.createVault, ConfigRequest.vaultRequest]
    split_ifs with hid
    · exact .here ⟨_, rfl, rfl⟩
    obtain rfl := (hon v rfl).resolve_left hid
    refine looks_settles (getVault_readsRow s v.id) henv (fun y hy => ?_) fun y hy => ?_
    · obtain rfl : y = none := hy
      exact saveVault_settles henv.next hdraws v ⟨_, rfl, rfl⟩ fun _ => ⟨_, rfl, rfl⟩
    · obtain ⟨a, rfl⟩ := Option.ne_none_iff_exists'.mp hy
      exact ⟨_, rfl, rfl⟩
  | updateVault k body =>
    obtain rfl : k = id := hon
    rcases body with _ | v
    · simp only [ConfigRequest.program, ConfigHandler.updateVault]
      split_ifs <;> exact .here ⟨_, rfl, rfl⟩
    simp only [ConfigRequest.program, ConfigHandler.updateVault, ConfigRequest.vaultRequest]
    split_ifs with hid
    · exact .here ⟨_, rfl, rfl⟩
    refine looks_settles (getVault_readsRow s k) henv (fun y hy => ?_) fun y hy => ?_
    · obtain ⟨a, rfl⟩ := Option.ne_none_iff_exists'.mp hy
      exact saveVault_settles henv.next hdraws { v with id := k } ⟨_, rfl, rfl⟩ fun _ => ⟨_, rfl, rfl⟩
    · obtain rfl : y = none := not_ne_iff.mp hy
      exact ⟨_, rfl, rfl⟩
  | deleteVaultConfig k =>
    obtain rfl : k = id := hon
    simp only [ConfigRequest.program, ConfigHandler.deleteVaultConfig, ConfigRequest.vaultRequest]
    split_ifs with hid
    · exact .here ⟨_, rfl, rfl⟩
    · exact .here ⟨henv 0, _, rfl, .here ⟨_, rfl, rfl⟩⟩
  | _ => exact hon.elim

theorem sync_settles (s : ConfigStore) {env : Surroundings} (henv : env.Works) {id : String}
    {r : ConfigRequest} (hon : r.OnSync id) :
    Settles serve (RequestAt .syncs id s.readSync r.syncRequest r.syncRequest.first) (r.program s)
      env := by
  have hread : ∀ (sc : SyncConfig) pre, s.readSync pre (SyncConfig.codec.marshal sc) = .ok sc.reread := by
    intro sc pre
    rw [ConfigStore.readSync, SyncConfig.unmarshal_marshal]
  cases r with
  | createSync body =>
    rcases body with _ | sc
    · exact .here ⟨_, rfl, rfl⟩
    simp only [ConfigRequest.program, ConfigHandler.createSync, ConfigRequest.syncRequest]
    split_ifs with hid
    · exact .here ⟨_, rfl, rfl⟩
    obtain rfl := (hon sc rfl).resolve_left hid
    refine looks_settles (getSync_readsRow s sc.id) henv (fun y hy => ?_) fun y hy => ?_
    · obtain rfl : y = none := hy
      exact upsert_settles henv.next (hread sc) ⟨_, rfl, rfl⟩ fun _ => ⟨_, rfl, rfl⟩
    · obtain ⟨a, rfl⟩ := Option.ne_none_iff_exists'.mp hy
      exact ⟨_, rfl, rfl⟩
  | updateSync k body =>
    obtain rfl : k = id := hon
    rcases body with _ | sc
    · simp only [ConfigRequest.program, ConfigHandler.updateSync]
      split_ifs <;> exact .here ⟨_, rfl, rfl⟩
    simp only [ConfigRequest.program, ConfigHandler.updateSync, ConfigRequest.syncRequest]
    split_ifs with hid
    · exact .here ⟨_, rfl, rfl⟩
    refine looks_settles (getSync_readsRow s k) henv (fun y hy => ?_) fun y hy => ?_
    · obtain ⟨a, rfl⟩ := Option.ne_none_iff_exists'.mp hy
      exact upsert_settles henv.next (hread { sc with id := k }) ⟨_, rfl, rfl⟩ fun _ => ⟨_, rfl, rfl⟩
    · obtain rfl : y = none := not_ne_iff.mp hy
      exact ⟨_, rfl, rfl⟩
  | deleteSyncConfig k =>
    obtain rfl : k = id := hon
    simp only [ConfigRequest.program, ConfigHandler.deleteSyncConfig, ConfigRequest.syncRequest]
    split_ifs with hid
    · exact .here ⟨_, rfl, rfl⟩
    · exact .here ⟨henv 0, _, rfl, .here ⟨_, rfl, rfl⟩⟩
  | _ => exact hon.elim

/-! ### All interleavings -/

section Runs

variable {n : ℕ} (s : ConfigStore) (req : Fin n → ConfigRequest) (env : Fin n → Surroundings)
  (db : Database)

/-- The requests side by side. -/
def configRequests : Threads.State DbCall DbCall.Ans Surroundings Database ApiReply (Fin n) where
  prog i := (req i).program s
  env := env
  shared := db

/-- One of the requests with no other beside it. -/
def requestAlone (i : Fin n) (db : Database) : ApiReply × Database :=
  ((((req i).program s).run serve (env i, db)).1, (((req i).program s).run serve (env i, db)).2.2)

/-- In every run, the set of status codes and the configuration that is stored at the end are those of
    some order of the requests. -/
def CodesLinearizable : Prop :=
  ∀ x, Threads.Reaches serve (configRequests s req env db) x → x.Finished →
    ∃ l : List (Fin n), l.Nodup ∧ (∀ i, i ∈ l) ∧
      {c | ∃ i a, x.prog i = .ret a ∧ a.status = c} =
        {c | ∃ i a, (inTurn (requestAlone s req env) db l).1 i = some a ∧ a.status = c} ∧
      s.graph x.shared = s.graph (inTurn (requestAlone s req env) db l).2

/-- And so is the status of each request. -/
def RepliesLinearizable : Prop :=
  ∀ x, Threads.Reaches serve (configRequests s req env db) x → x.Finished →
    ∃ l : List (Fin n), l.Nodup ∧ (∀ i, i ∈ l) ∧
      (∀ i, ∃ a b, x.prog i = .ret a ∧ (inTurn (requestAlone s req env) db l).1 i = some b ∧
        a.status = b.status) ∧
      s.graph x.shared = s.graph (inTurn (requestAlone s req env) db l).2

variable {s req env db}

theorem RepliesLinearizable.codes (h : RepliesLinearizable s req env db) :
    CodesLinearizable s req env db := by
  intro x hx hfinished
  obtain ⟨l, hnd, hall, hreplies, hgraph⟩ := h x hx hfinished
  refine ⟨l, hnd, hall, Set.ext fun c => ⟨?_, ?_⟩, hgraph⟩
  · rintro ⟨i, a, ha, rfl⟩
    obtain ⟨a', b, ha', hb, hstatus⟩ := hreplies i
    obtain rfl := Prog.ret.inj (ha.symm.trans ha')
    exact ⟨i, b, hb, hstatus.symm⟩
  · rintro ⟨i, b, hb, rfl⟩
    obtain ⟨a, b', ha, hb', hstatus⟩ := hreplies i
    obtain rfl := Option.some.inj (hb.symm.trans hb')
    exact ⟨i, a, ha, hstatus⟩

section Row

variable {ν : Type} {t : ConfigTable} {id : String} {read : String → String → Except GoError ν}
  {r : Fin n → OneKey.Request ν} {y₀ : Option ν}

/-- What the requests ask of one row, in one database. -/
structure AskedOf (s : ConfigStore) (req : Fin n → ConfigRequest) (env : Fin n → Surroundings)
    (db : Database) (t : ConfigTable) (id : String) (read : String → String → Except GoError ν)
    (r : Fin n → OneKey.Request ν) (y₀ : Option ν) : Prop where
  settles : ∀ i, Settles serve (RequestAt t id read (r i) (r i).first) ((req i).program s) (env i)
  row : RowIs t id read db db y₀
  graph : ∀ {x x' y y'}, RowIs t id read db x y → RowIs t id read db x' y' →
    (s.graph x = s.graph x' ↔ y = y')

/-- The requests in an order do what they are asked in that order. -/
theorem AskedOf.in_order (h : AskedOf s req env db t id read r y₀) (l : List (Fin n)) :
    (∀ i, Option.Rel (fun a o => a.status = statusOf o) ((inTurn (requestAlone s req env) db l).1 i)
        ((inTurn (fun i => (r i).alone) y₀ l).1 i)) ∧
      RowIs t id read db (inTurn (requestAlone s req env) db l).2 (inTurn (fun i => (r i).alone) y₀ l).2 := by
  refine inTurn_rel (V := fun _ (a : ApiReply) o => a.status = statusOf o) (fun i x y hxy => ?_) h.row l
  obtain ⟨p', y', o, halone, hdone, hV, hR⟩ :=
    (requests_refine t id read db r).alone (h.settles i) hxy
  rw [OneKey.alone_of_steps halone hdone]
  exact ⟨hV, hR⟩

theorem AskedOf.matches (h : AskedOf s req env db t id read r y₀) :
    Matches serve (fun i => RequestAt t id read (r i)) (RowIs t id read db)
      (configRequests s req env db) (OneKey.start r y₀) := ⟨h.settles, h.row⟩

/-- Compatible requests are as in some order. -/
theorem AskedOf.replies (h : AskedOf s req env db t id read r y₀) (hc : OneKey.Compatible r y₀) :
    RepliesLinearizable s req env db := by
  intro x hx hfinished
  have href := requests_refine t id read db r
  obtain ⟨t', ht', hm⟩ := href.run h.matches hx
  have hdone : ∀ i, ∃ a o, x.prog i = .ret a ∧ (t'.phase i).outcome = some o ∧ a.status = statusOf o := by
    intro i
    obtain ⟨a, ha⟩ := hfinished i
    obtain ⟨o, ho, hstatus⟩ := href.returned hm ha
    exact ⟨a, o, ha, ho, hstatus⟩
  obtain ⟨l, hnd, hall, hl⟩ := OneKey.exists_order hc ht' fun i => by
    obtain ⟨a, o, -, ho, -⟩ := hdone i
    rw [ho]
    exact Option.some_ne_none o
  obtain ⟨hturn, hrow⟩ := h.in_order l
  rw [hl] at hturn hrow
  refine ⟨l, hnd, hall, fun i => ?_, (h.graph hm.shared hrow).mpr rfl⟩
  obtain ⟨a, o, ha, ho, hstatus⟩ := hdone i
  have hi := hturn i
  dsimp only at hi
  rw [ho] at hi
  generalize (inTurn (requestAlone s req env) db l).1 i = b at hi ⊢
  obtain ⟨hb⟩ := hi
  exact ⟨a, _, ha, rfl, hstatus.trans hb.symm⟩

/-- No order explains a clash. -/
theorem AskedOf.no_clash (h : AskedOf s req env db t id read r y₀)
    (hcodes : CodesLinearizable s req env db)
    {t' : Phases.State (Fin n) (OneKey.Phase ν) (Option ν)}
    (ht' : Run (fun i => (r i).step) (OneKey.start r y₀) t') (i : Fin n) :
    t'.phase i ≠ .done .clash := by
  intro hclash
  have href := requests_refine t id read db r
  obtain ⟨x, t'', hx, hfinished, ht'', hm⟩ := href.finish h.matches ht'
  obtain ⟨a, ha⟩ := hfinished i
  obtain ⟨o, ho, hstatus⟩ := href.returned hm ha
  rw [ht''.phase_stays fun y => by rw [hclash]; rfl, hclash] at ho
  obtain rfl := Option.some.inj ho
  obtain ⟨l, -, -, hset, -⟩ := hcodes x hx hfinished
  obtain ⟨j, b, hb, hfive⟩ := hset.le ⟨i, a, ha, hstatus⟩
  have hj := (h.in_order l).1 j
  rw [hb] at hj
  generalize ho : (inTurn (fun i => (r i).alone) y₀ l).1 j = o at hj
  obtain ⟨hj⟩ := hj
  exact OneKey.inTurn_ne_clash l j (ho.trans (congrArg some (statusOf_eq_500 (hj.symm.trans hfive))))

/-- Nor an entry that is left after a delete though nothing was created. -/
theorem AskedOf.deleted (h : AskedOf s req env db t id read r y₀)
    (hcodes : CodesLinearizable s req env db) (hdelete : (OneKey.deletes r).Nonempty)
    {t' : Phases.State (Fin n) (OneKey.Phase ν) (Option ν)}
    (ht' : Run (fun i => (r i).step) (OneKey.start r y₀) t')
    (hdone : ∀ i, ∃ o, t'.phase i = .done o ∧ o ≠ .saved .create) : t'.shared = none := by
  have href := requests_refine t id read db r
  obtain ⟨x, t'', hx, hfinished, ht'', hm⟩ := href.finish h.matches ht'
  obtain rfl := ht''.eq_of_stays fun i y => by
    obtain ⟨o, ho, -⟩ := hdone i
    rw [ho]
    rfl
  obtain ⟨l, hnd, hall, hset, hgraph⟩ := hcodes x hx hfinished
  obtain ⟨hturn, hrow⟩ := h.in_order l
  obtain ⟨d, hd⟩ := hdelete
  have hsame := (h.graph hm.shared hrow).mp hgraph
  refine hsame.trans (OneKey.inTurn_none hnd (fun i hi => ?_) ⟨d, hall d, hd⟩)
  -- a create that goes through in turn would have returned 201 in the run, too
  have hi' := hturn i
  rw [hi] at hi'
  generalize hb : (inTurn (requestAlone s req env) db l).1 i = b at hi'
  obtain ⟨hb'⟩ := hi'
  obtain ⟨j, a, ha, hcreated⟩ := hset.ge ⟨i, _, hb, hb'⟩
  obtain ⟨o, ho, hstatus⟩ := href.returned hm ha
  obtain ⟨o', ho', hne⟩ := hdone j
  rw [ho'] at ho
  obtain rfl := Option.some.inj ho
  exact hne (statusOf_eq_201 (hstatus.symm.trans hcreated))

theorem AskedOf.compatible (h : AskedOf s req env db t id read r y₀)
    (hcodes : CodesLinearizable s req env db) : OneKey.Compatible r y₀ := by
  by_contra hnot
  rcases OneKey.exists_clash_or_kept hnot with ⟨t', i, ht', hclash⟩ | ⟨hdelete, t', ht', hdone, hkept⟩
  · exact h.no_clash hcodes ht' i hclash
  · exact hkept (h.deleted hcodes hdelete ht' hdone)

theorem AskedOf.linearizable_iff (h : AskedOf s req env db t id read r y₀) :
    (CodesLinearizable s req env db ↔ OneKey.Compatible r y₀) ∧
      (RepliesLinearizable s req env db ↔ OneKey.Compatible r y₀) :=
  ⟨⟨h.compatible, fun hc => (h.replies hc).codes⟩, ⟨fun hr => h.compatible hr.codes, h.replies⟩⟩

end Row

theorem askedOf_vault (hsound : s.Sound db) (hworks : ∀ i, (env i).Works) (hdraws : ∀ i, (env i).Draws)
    {id : String} (hon : ∀ i, (req i).OnVault id) :
    AskedOf s req env db .vaults id s.readVault (fun i => (req i).vaultRequest)
      ((s.graph db).nodes id) where
  settles i := vault_settles s (hworks i) (hdraws i) (hon i)
  row := ⟨hsound.vaults.rel id, fun _ _ _ => rfl⟩
  graph := by
    intro x x' y y' h h'
    constructor
    · intro hgraph
      rw [← h.said_eq, ← h'.said_eq]
      exact congrFun (congrArg References.Graph.nodes hgraph) id
    · rintro rfl
      obtain ⟨hsaid, hothers⟩ := h.said_congr h'
      rw [ConfigStore.graph, ConfigStore.graph, hsaid, hothers .syncs (by decide)]

theorem askedOf_sync (hsound : s.Sound db) (hworks : ∀ i, (env i).Works) {id : String}
    (hon : ∀ i, (req i).OnSync id) :
    AskedOf s req env db .syncs id s.readSync (fun i => (req i).syncRequest)
      ((s.graph db).links id) where
  settles i := sync_settles s (hworks i) (hon i)
  row := ⟨hsound.syncs.rel id, fun _ _ _ => rfl⟩
  graph := by
    intro x x' y y' h h'
    constructor
    · intro hgraph
      rw [← h.said_eq, ← h'.said_eq]
      exact congrFun (congrArg References.Graph.links hgraph) id
    · rintro rfl
      obtain ⟨hsaid, hothers⟩ := h.said_congr h'
      rw [ConfigStore.graph, ConfigStore.graph, hsaid, hothers .vaults (by decide)]

/-- Requests on one vault, or on one sync, are as in some order in every run exactly if they are
    compatible: with none stored at first there is no create, or one create and not both a delete and
    two updates; else no delete, or no update and at most one create. -/
theorem config_linearizable_iff (hsound : s.Sound db) (hworks : ∀ i, (env i).Works)
    (hdraws : ∀ i, (env i).Draws) (id : String) :
    ((∀ i, (req i).OnVault id) →
      (CodesLinearizable s req env db ↔
        OneKey.Compatible (fun i => (req i).vaultRequest) ((s.graph db).nodes id)) ∧
      (RepliesLinearizable s req env db ↔
        OneKey.Compatible (fun i => (req i).vaultRequest) ((s.graph db).nodes id))) ∧
    ((∀ i, (req i).OnSync id) →
      (CodesLinearizable s req env db ↔
        OneKey.Compatible (fun i => (req i).syncRequest) ((s.graph db).links id)) ∧
      (RepliesLinearizable s req env db ↔
        OneKey.Compatible (fun i => (req i).syncRequest) ((s.graph db).links id))) :=
  ⟨fun hon => (askedOf_vault hsound hworks hdraws hon).linearizable_iff,
    fun hon => (askedOf_sync hsound hworks hon).linearizable_iff⟩

end Runs

/-- A vault is created, updated and deleted at once. -/
def oneOfEach : Fin 3 → ConfigRequest :=
  ![.createVault (some { id := "v" }), .updateVault "v" (some { id := "v", name := "V" }),
    .deleteVaultConfig "v"]

theorem config_linearizable_oneOfEach :
    RepliesLinearizable ⟨some markingCipher, GoError.new⟩ oneOfEach (fun _ => {}) .empty := by
  have hon : ∀ i, (oneOfEach i).OnVault "v" := by
    intro i
    fin_cases i
    · rintro v ⟨⟩
      exact .inr rfl
    · rfl
    · rfl
  refine (((config_linearizable_iff (ConfigStore.sound_empty _) (fun _ => Surroundings.works_default)
    (fun _ _ => ⟨[], rfl⟩) "v").1 hon).2).mpr (.inr ⟨?_, .inr ?_⟩)
  · rintro i ⟨v, hi⟩ j ⟨w, hj⟩
    fin_cases i <;> fin_cases j <;> simp_all [oneOfEach, ConfigRequest.vaultRequest]
  · rintro i ⟨v, hi⟩ j ⟨w, hj⟩
    fin_cases i <;> fin_cases j <;> simp_all [oneOfEach, ConfigRequest.vaultRequest]

/-- A vault that is created twice at once. -/
theorem config_not_linearizable : ¬∀ (n : ℕ) (s : ConfigStore) (req : Fin n → ConfigRequest)
    (env : Fin n → Surroundings) (db : Database) (id : String), s.Sound db → (∀ i, (env i).Works) →
      (∀ i, (env i).Draws) → (∀ i, (req i).OnVault id) → CodesLinearizable s req env db := by
  intro h
  have hon : ∀ i : Fin 2, (oneOfEach 0).OnVault "v" := by
    rintro - v ⟨⟩
    exact .inr rfl
  have hsound := ConfigStore.sound_empty ⟨some markingCipher, GoError.new⟩
  have hworks : ∀ i : Fin 2, ({} : Surroundings).Works := fun _ => Surroundings.works_default
  have hdraws : ∀ i : Fin 2, ({} : Surroundings).Draws := fun _ _ => ⟨[], rfl⟩
  have hcreate : (oneOfEach 0).vaultRequest = .save .create (VaultConfig.reread { id := "v" }) := rfl
  rcases (askedOf_vault hsound hworks hdraws hon).compatible (h 2 _ _ _ _ "v" hsound hworks hdraws hon)
    with hnone | ⟨hone, -⟩
  · exact Set.notMem_empty (0 : Fin 2) (hnone ▸ ⟨_, hcreate⟩)
  · exact absurd (hone (x := 0) ⟨_, hcreate⟩ (y := 1) ⟨_, hcreate⟩) (by decide)

end VaultsSyncer
