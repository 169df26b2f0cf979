import VaultsSyncer.Api.Effects
import VaultsSyncer.Schemes.Lockstep
import VaultsSyncer.Schemes.TableRel
import VaultsSyncer.Storage.SealedConfig

/-! What of a stored vault the API shows (`sanitiseVault`). Two stores whose vaults differ only in what it
    hides, under whatever keys, answer every statement alike: the texts of the rows are different ones, but
    what is made of them is the same.

        store     {id: v, auth: {method: m, headers: {X: ⟨a⟩}}}       shown  {id: v, auth: {method: m}}
        store'    {id: v, auth: {method: m, headers: {X: ⟨b⟩}}}       shown  {id: v, auth: {method: m}} -/

namespace VaultsSyncer

open GoStd Schemes Schemes.Prog

/-- The API shows the same of both. -/
def SameShown (v v' : VaultConfig) : Prop := sanitiseVault v = sanitiseVault v'

/-- Both have failed, or have results that go together. -/
inductive Together {α β : Type} (R : α → β → Prop) : Except GoError α → Except GoError β → Prop
  | error (err err' : GoError) : Together R (.error err) (.error err')
  | ok {a : α} {b : β} : R a b → Together R (.ok a) (.ok b)

theorem sameShown_iff {v v' : VaultConfig} : SameShown v v' ↔ v.id = v'.id ∧ v.name = v'.name ∧
    v.type = v'.type ∧ v.endpoint = v'.endpoint ∧ v.timeout = v'.timeout ∧
    v.auth.map AuthConfig.method = v'.auth.map AuthConfig.method := by
  rw [SameShown, sanitiseVault, sanitiseVault]
  have hint : ∀ {a b : ℤ}, Json.int a = Json.int b ↔ a = b := by
    intro a b
    simp only [Json.int, Json.number.injEq, Number.mk.injEq, decide_eq_decide, and_true]
    omega
  rcases v.auth with _ | auth <;> rcases v'.auth with _ | auth' <;> simp [hint]

namespace SameShown

variable {v v' : VaultConfig}

theorem id_eq (h : SameShown v v') : v.id = v'.id := (sameShown_iff.mp h).1

theorem endpoint_eq (h : SameShown v v') : v.endpoint = v'.endpoint := (sameShown_iff.mp h).2.2.2.1

theorem with_id (h : SameShown v v') (id : String) :
    SameShown { v with id := id } { v' with id := id } := by
  obtain ⟨-, hrest⟩ := sameShown_iff.mp h
  exact sameShown_iff.mpr ⟨rfl, hrest⟩

theorem reread (h : SameShown v v') : SameShown v.reread v'.reread := by
  obtain ⟨hid, hname, htype, hendpoint, htimeout, hmethod⟩ := sameShown_iff.mp h
  have hauth : ∀ a : Option AuthConfig, (a.map AuthConfig.codec.norm).map AuthConfig.method =
      a.map AuthConfig.method := fun a => by rw [Option.map_map]; rfl
  refine sameShown_iff.mpr ⟨hid, hname, htype, hendpoint, htimeout, ?_⟩
  rw [VaultConfig.reread_auth, VaultConfig.reread_auth, hauth, hauth, hmethod]

end SameShown

namespace Together

variable {α β γ δ : Type} {R : α → β → Prop}

theorem mapError {a : Except GoError α} {b : Except GoError β} (h : Together R a b) (pre : String) :
    Together R (a.mapError (GoError.wrap pre)) (b.mapError (GoError.wrap pre)) := by
  cases h with
  | error err err' => exact .error _ _
  | ok hab => exact .ok hab

theorem refl {S : α → α → Prop} (hS : ∀ a, S a a) (a : Except GoError α) : Together S a a := by
  rcases a with err | a
  · exact .error _ _
  · exact .ok (hS a)

/-- Of lists whose elements are read alike, all or none can be read. -/
theorem mapM {S : γ → δ → Prop} {f : γ → Except GoError α} {g : δ → Except GoError β} {l : List γ}
    {l' : List δ} (hfg : ∀ c d, S c d → Together R (f c) (g d)) (h : List.Forall₂ S l l') :
    Together (List.Forall₂ R) (l.mapM f) (l'.mapM g) := by
  induction h with
  | nil => exact .ok .nil
  | @cons c d l l' hcd _ ih =>
    rw [List.mapM_cons, List.mapM_cons]
    have hhead := hfg c d hcd
    generalize f c = a at hhead
    generalize g d = b at hhead
    generalize l.mapM f = as at ih
    generalize l'.mapM g = bs at ih
    cases hhead with
    | error err err' => exact .error err err'
    | ok hab =>
      cases ih with
      | error err err' => exact .error err err'
      | ok hrest => exact .ok (.cons hab hrest)

end Together

/-! ### Rows -/

section Rows

variable (s s' : ConfigStore)

/-- The texts are read alike, the one by the one store and the other by the other. -/
def RowAlike (raw raw' : String) : Prop :=
  (raw = "" ↔ raw' = "") ∧ ∀ pre, Together SameShown (s.readVault pre raw) (s'.readVault pre raw')

/-- The databases differ in the texts of the vaults alone, and these are read alike. -/
structure SameButHidden (db db' : Database) : Prop where
  users : db.users = db'.users
  sessions : db.sessions = db'.sessions
  appSettings : db.appSettings = db'.appSettings
  syncs : db.config .syncs = db'.config .syncs
  vaults : List.Forall₂ (fun row row' => row.id = row'.id ∧ row.createdAt = row'.createdAt ∧
    RowAlike s s' row.configJSON row'.configJSON) (db.config .vaults).rows (db'.config .vaults).rows

/-- A statement that gives or takes the text of a vault. -/
def Stmt.OnVaultText : Stmt → Bool
  | .selectConfig .vaults _ | .selectConfigs .vaults | .updateConfig .vaults _ _ _
  | .insertConfig .vaults _ _ _ => true
  | _ => false

/-- The same call, but for the text of a vault. -/
inductive CallAlike : DbCall → DbCall → Prop
  | same {op} : op.Only (fun st => st.OnVaultText = false) → CallAlike op op
  | select (id) : CallAlike (.sql (.selectConfig .vaults id)) (.sql (.selectConfig .vaults id))
  | selectAll : CallAlike (.sql (.selectConfigs .vaults)) (.sql (.selectConfigs .vaults))
  | update (id now) {json json'} : RowAlike s s' json json' →
      CallAlike (.sql (.updateConfig .vaults id json now)) (.sql (.updateConfig .vaults id json' now))
  | insert (id now) {json json'} : RowAlike s s' json json' →
      CallAlike (.sql (.insertConfig .vaults id json now)) (.sql (.insertConfig .vaults id json' now))

/-- The same answer, but for the texts of vaults. -/
inductive AnsAlike : (op op' : DbCall) → op.Ans → op'.Ans → Prop
  | same {op} (a : op.Ans) : op.Only (fun st => st.OnVaultText = false) → AnsAlike op op a a
  | select {id} {a a' : Except GoError (Option String)} : Together (Option.Rel (RowAlike s s')) a a' →
      AnsAlike (.sql (.selectConfig .vaults id)) (.sql (.selectConfig .vaults id)) a a'
  | selectAll {a a' : Except GoError (List String)} : Together (List.Forall₂ (RowAlike s s')) a a' →
      AnsAlike (.sql (.selectConfigs .vaults)) (.sql (.selectConfigs .vaults)) a a'
  | update {id json json' now} (a : Except GoError ℕ) :
      AnsAlike (.sql (.updateConfig .vaults id json now)) (.sql (.updateConfig .vaults id json' now)) a a
  | insert {id json json' now} (a : Except GoError Unit) :
      AnsAlike (.sql (.insertConfig .vaults id json now)) (.sql (.insertConfig .vaults id json' now)) a a

/-- The programs make the same calls, but for the texts of vaults. -/
abbrev InStep {α β : Type} (V : α → β → Prop) (p : Db α) (q : Db β) : Prop :=
  Sim (CallAlike s s') (AnsAlike s s') V p q

variable {s s'}

/-- A program that has nothing to do with these texts is in step with itself. -/
theorem inStep_self {α : Type} {p : Db α} (hp : p.AllCalls (DbCall.Only fun st => st.OnVaultText = false)) :
    InStep s s' (· = ·) p p := by
  refine AllCalls.sim_self (hp.mono fun op hop => ⟨.same hop, fun r r' hr => ?_⟩)
  cases hr with
  | same _ _ => rfl
  | select _ => cases hop
  | selectAll _ => cases hop
  | update _ => rfl
  | insert _ => rfl

/-! ### Statements -/

variable {db db' : Database}

theorem SameButHidden.setSyncs (h : SameButHidden s s' db db') (rows : Table.Keyed ConfigRow.id) :
    SameButHidden s s' (db.setConfig .syncs rows) (db'.setConfig .syncs rows) where
  users := h.users
  sessions := h.sessions
  appSettings := h.appSettings
  syncs := by simp only [Database.setConfig, Function.update_self]
  vaults := by simpa only [Database.setConfig, ne_eq, reduceCtorEq, not_false_eq_true,
    Function.update_of_ne] using h.vaults

theorem SameButHidden.setVaults (h : SameButHidden s s' db db') {rows rows' : Table.Keyed ConfigRow.id}
    (hrows : List.Forall₂ (fun row row' => row.id = row'.id ∧ row.createdAt = row'.createdAt ∧
      RowAlike s s' row.configJSON row'.configJSON) rows.rows rows'.rows) :
    SameButHidden s s' (db.setConfig .vaults rows) (db'.setConfig .vaults rows') where
  users := h.users
  sessions := h.sessions
  appSettings := h.appSettings
  syncs := by simpa only [Database.setConfig, ne_eq, reduceCtorEq, not_false_eq_true,
    Function.update_of_ne] using h.syncs
  vaults := by simpa only [Database.setConfig, Function.update_self] using hrows

/-- Statements that have nothing to do with these texts answer the same. -/
theorem exec_same (h : SameButHidden s s' db db') {st : Stmt} (hst : st.OnVaultText = false) :
    (st.exec db).1 = (st.exec db').1 ∧ SameButHidden s s' (st.exec db).2 (st.exec db').2 := by
  obtain ⟨users, sessions, hsessions, settings, config⟩ := db
  obtain ⟨users', sessions', hsessions', settings', config'⟩ := db'
  obtain ⟨rfl, rfl, rfl, hsyncs, hvaults⟩ := id h
  dsimp only at h hsyncs hvaults
  cases st with
  | selectSetting key => exact ⟨rfl, h⟩
  | updateSetting key value now => exact ⟨rfl, rfl, rfl, rfl, hsyncs, hvaults⟩
  | insertSetting key value now =>
    simp only [Stmt.exec]
    split_ifs
    · exact ⟨rfl, rfl, rfl, rfl, hsyncs, hvaults⟩
    · exact ⟨rfl, h⟩
  | selectUserByUsername username => exact ⟨rfl, h⟩
  | selectUserByID id => exact ⟨rfl, h⟩
  | selectUsers => exact ⟨rfl, h⟩
  | insertUser username hash role now =>
    simp only [Stmt.exec]
    split_ifs
    · exact ⟨rfl, rfl, rfl, rfl, hsyncs, hvaults⟩
    · exact ⟨rfl, h⟩
  | updateUserPassword id hash now => exact ⟨rfl, rfl, rfl, rfl, hsyncs, hvaults⟩
  | updateUserRole id role now => exact ⟨rfl, rfl, rfl, rfl, hsyncs, hvaults⟩
  | deleteUser id => exact ⟨rfl, rfl, rfl, rfl, hsyncs, hvaults⟩
  | selectSession token now => exact ⟨rfl, h⟩
  | insertSession userID token expiresAt now =>
    simp only [Stmt.exec]
    split_ifs
    · exact ⟨rfl, rfl, rfl, rfl, hsyncs, hvaults⟩
    · exact ⟨rfl, h⟩
    · exact ⟨rfl, h⟩
  | deleteSession token => exact ⟨rfl, rfl, rfl, rfl, hsyncs, hvaults⟩
  | deleteSessionsOf userID => exact ⟨rfl, rfl, rfl, rfl, hsyncs, hvaults⟩
  | selectConfig t id =>
    cases t with
    | vaults => cases hst
    | syncs => exact ⟨by simp only [Stmt.exec, hsyncs], h⟩
  | selectConfigs t =>
    cases t with
    | vaults => cases hst
    | syncs => exact ⟨by simp only [Stmt.exec, hsyncs], h⟩
  | updateConfig t id json now =>
    cases t with
    | vaults => cases hst
    | syncs =>
      simp only [Stmt.exec, hsyncs]
      exact ⟨trivial, h.setSyncs _⟩
  | insertConfig t id json now =>
    cases t with
    | vaults => cases hst
    | syncs =>
      simp only [Stmt.exec, hsyncs]
      split_ifs
      · exact ⟨rfl, h.setSyncs _⟩
      · exact ⟨rfl, h⟩
  | deleteConfig t id =>
    cases t with
    | vaults => exact ⟨rfl, h.setVaults (Table.rel_remove hvaults (fun _ _ hrow => hrow.1) id)⟩
    | syncs =>
      simp only [Stmt.exec, hsyncs]
      exact ⟨trivial, h.setSyncs _⟩

theorem lookup_vaults (h : SameButHidden s s' db db') (id : String) :
    Option.Rel (RowAlike s s') (((db.config .vaults).lookup id).map ConfigRow.configJSON)
      (((db'.config .vaults).lookup id).map ConfigRow.configJSON) := by
  have hrow := Table.rel_lookup h.vaults (fun _ _ hrow => hrow.1) id
  rw [Table.Keyed.lookup, Table.Keyed.lookup]
  generalize Table.lookup ConfigRow.id id (db.config .vaults).rows = row at hrow
  generalize Table.lookup ConfigRow.id id (db'.config .vaults).rows = row' at hrow
  cases hrow with
  | none => exact .none
  | some hrow => exact .some hrow.2.2

theorem texts_vaults (h : SameButHidden s s' db db') : List.Forall₂ (RowAlike s s')
    ((byCreation ConfigRow.createdAt (db.config .vaults).rows).map ConfigRow.configJSON)
    ((byCreation ConfigRow.createdAt (db'.config .vaults).rows).map ConfigRow.configJSON) := by
  refine List.rel_map (fun _ _ hrow => hrow.2.2) (Table.rel_insertionSort h.vaults ?_)
  rintro a b ⟨-, hab, -⟩ c d ⟨-, hcd, -⟩
  rw [hab, hcd]

theorem affected_vaults (h : SameButHidden s s' db db') (id : String) :
    (db.config .vaults).affected id = (db'.config .vaults).affected id :=
  Table.rel_affected h.vaults (fun _ _ hrow => hrow.1) id

theorem lookup_vaults_eq_none (h : SameButHidden s s' db db') (id : String) :
    (db.config .vaults).lookup id = none ↔ (db'.config .vaults).lookup id = none := by
  rw [← Table.Keyed.affected_eq_zero, ← Table.Keyed.affected_eq_zero, affected_vaults h]

/-- Like calls on like databases are answered alike, and leave like databases. -/
theorem respects_serve : Respects serve serve (fun _ => True) (CallAlike s s') (AnsAlike s s')
    fun x y => x.1 = y.1 ∧ SameButHidden s s' x.2 y.2 := by
  rintro op op' ⟨env, db⟩ ⟨_, db'⟩ - hop ⟨rfl, h⟩
  dsimp only at h
  cases hop with
  | same hop =>
    cases op with
    | sql st =>
      simp only [serve]
      rcases env.faults.head with _ | err
      · obtain ⟨hans, hdb⟩ := exec_same h hop
        dsimp only
        rw [hans]
        exact ⟨.same _ hop, rfl, hdb⟩
      · exact ⟨.same _ hop, rfl, h⟩
    | rowsAffected n =>
      simp only [serve]
      rcases env.faults.head with _ | err
      · exact ⟨.same _ hop, rfl, h⟩
      · exact ⟨.same _ hop, rfl, h⟩
    | now => exact ⟨.same _ hop, rfl, h⟩
    | randRead n => exact ⟨.same _ hop, rfl, h⟩
  | select id =>
    simp only [serve]
    rcases env.faults.head with _ | err
    · exact ⟨.select (.ok (lookup_vaults h id)), rfl, h⟩
    · exact ⟨.select (.error err err), rfl, h⟩
  | selectAll =>
    simp only [serve]
    rcases env.faults.head with _ | err
    · exact ⟨.selectAll (.ok (texts_vaults h)), rfl, h⟩
    · exact ⟨.selectAll (.error err err), rfl, h⟩
  | update id now hjson =>
    simp only [serve]
    rcases env.faults.head with _ | err
    · simp only [Stmt.exec, affected_vaults h]
      refine ⟨.update _, trivial, h.setVaults (Table.rel_modify h.vaults (fun _ _ hrow => hrow.1) id ?_)⟩
      exact fun _ _ hrow => ⟨hrow.1, hrow.2.1, hjson⟩
    · exact ⟨.update _, rfl, h⟩
  | @insert id now json json' hjson =>
    simp only [serve]
    rcases env.faults.head with _ | err
    · simp only [Stmt.exec]
      by_cases hfree : (db.config .vaults).lookup id = none
      · have hfree' := (lookup_vaults_eq_none h id).mp hfree
        rw [dif_pos hfree, dif_pos hfree']
        refine ⟨.insert _, trivial, h.setVaults (List.rel_append h.vaults ?_)⟩
        exact .cons ⟨rfl, rfl, hjson⟩ .nil
      · have htaken := fun hfree' => hfree ((lookup_vaults_eq_none h id).mpr hfree')
        rw [dif_neg hfree, dif_neg htaken]
        exact ⟨.insert _, trivial, h⟩
    · exact ⟨.insert _, rfl, h⟩

/-! ### The config store -/

/-- There is nothing to be read in an empty text. -/
theorem unmarshal_empty : VaultConfig.codec.unmarshal "" = none := by decide +kernel

theorem rowAlike_empty : RowAlike s s' "" "" := by
  refine ⟨Iff.rfl, fun pre => ?_⟩
  rw [ConfigStore.readVault, ConfigStore.readVault, unmarshal_empty]
  exact .error _ _

theorem inStep_select (pre id : String) : InStep s s' (Together (Option.Rel (RowAlike s s')))
    (Db.exec pre (.selectConfig .vaults id)) (Db.exec pre (.selectConfig .vaults id)) := by
  refine .call (.select id) fun r r' hr => ?_
  cases hr with
  | same _ hop => cases hop
  | select hrow => exact .ret (hrow.mapError _)

theorem inStep_selectAll (pre : String) : InStep s s' (Together (List.Forall₂ (RowAlike s s')))
    (Db.exec pre (.selectConfigs .vaults)) (Db.exec pre (.selectConfigs .vaults)) := by
  refine .call .selectAll fun r r' hr => ?_
  cases hr with
  | same _ hop => cases hop
  | selectAll hrows => exact .ret (hrows.mapError _)

theorem inStep_getVault (id : String) :
    InStep s s' (Together (Option.Rel SameShown)) (s.getVault id) (s'.getVault id) := by
  have hjson : InStep s s' (Together (RowAlike s s')) (ConfigStore.getConfigJSON .vaults id)
      (ConfigStore.getConfigJSON .vaults id) := by
    refine Sim.bind (inStep_select _ id) ?_
    rintro _ _ (⟨err, err'⟩ | hrow)
    · exact .ret (.error err err')
    · cases hrow with
      | none => exact .ret (.ok rowAlike_empty)
      | some hrow => exact .ret (.ok hrow)
  refine Sim.bind hjson ?_
  rintro _ _ (⟨err, err'⟩ | @⟨raw, raw', hempty, hread⟩)
  · exact .ret (.error err err')
  · dsimp only
    by_cases hraw : raw = ""
    · rw [if_pos hraw, if_pos (hempty.mp hraw)]
      exact .ret (.ok .none)
    · rw [if_neg hraw, if_neg fun h => hraw (hempty.mpr h)]
      refine .ret ?_
      have hvault := hread "storage: GetVault unmarshal: "
      generalize s.readVault _ raw = v at hvault
      generalize s'.readVault _ raw' = v' at hvault
      cases hvault with
      | error err err' => exact .error err err'
      | ok hv => exact .ok (.some hv)

theorem inStep_listVaults :
    InStep s s' (Together (List.Forall₂ SameShown)) s.listVaults s'.listVaults := by
  refine Sim.bind (inStep_selectAll _) ?_
  rintro _ _ (⟨err, err'⟩ | hrows)
  · exact .ret (.error err err')
  · exact .ret (Together.mapM (fun _ _ hrow => hrow.2 _) hrows)

/-- Like texts under the same id are written in step. -/
theorem inStep_upsert (id : String) {json json' : String} (h : RowAlike s s' json json') :
    InStep s s' (· = ·) (ConfigStore.upsertConfigRow .vaults id json)
      (ConfigStore.upsertConfigRow .vaults id json') := by
  refine Sim.bind (inStep_self (p := Db.now) (allCalls_now trivial)) ?_
  rintro now _ rfl
  refine Sim.bind (V := (· = ·)) (.call (.update id now h) fun r r' hr => ?_) ?_
  · cases hr with
    | same _ hop => exact .ret rfl
    | update a => exact .ret rfl
  rintro (err | res) _ rfl
  · exact .ret rfl
  refine Sim.bind (inStep_self (allCalls_rowsAffected trivial)) ?_
  rintro (err | n) _ rfl
  · exact .ret rfl
  dsimp only
  split_ifs
  · refine .call (.insert id now h) fun r r' hr => ?_
    cases hr with
    | same _ hop => exact .ret rfl
    | insert a => exact .ret rfl
  · exact .ret rfl

/-! ### Saving -/

/-- The program draws `n` times and is done; it fails at the first draw that does. -/
inductive Draws {α : Type} : ℕ → Db (Except GoError α) → Prop
  | done (a : α) : Draws 0 (.ret (.ok a))
  | draw {n k} (herror : ∀ err, ∃ err', k (.error err) = .ret (.error err'))
      (hok : ∀ b, Draws n (k (.ok b))) : Draws (n + 1) (.call (.randRead 12) k)

/-- The texts that a save encrypts. -/
def VaultConfig.secretCount (v : VaultConfig) : ℕ :=
  match v.auth with
  | none => 0
  | some auth => auth.headers.length + match auth.oauth with
    | none => 0
    | some oauth => if oauth.clientSecret = "" then 0 else 1

section Draws

variable {α β : Type} {n m : ℕ}

theorem Draws.bind {p : Db (Except GoError α)} {f : Except GoError α → Db (Except GoError β)}
    (hp : Draws n p) (herror : ∀ err, ∃ err', f (.error err) = .ret (.error err'))
    (hok : ∀ a, Draws m (f (.ok a))) : Draws (n + m) (p >>= f) := by
  induction hp with
  | done a =>
    rw [Nat.zero_add]
    exact hok a
  | @draw n k herror' _ ih =>
    rw [Nat.add_right_comm]
    refine .draw (fun err => ?_) ih
    obtain ⟨err', hk⟩ := herror' err
    rw [hk]
    exact herror err'

/-- As many draws are in step, whatever is made of them. -/
theorem Draws.inStep {p : Db (Except GoError α)} {q : Db (Except GoError β)} (hp : Draws n p)
    (hq : Draws n q) : InStep s s' (Together fun _ _ => True) p q := by
  induction hp generalizing q with
  | done a =>
    cases hq with
    | done b => exact .ret (.ok trivial)
  | draw herror _ ih =>
    cases hq with
    | draw herror' hok' =>
      refine .call (.same trivial) fun r r' hr => ?_
      cases hr with
      | same _ _ =>
        rcases r with err | b
        · obtain ⟨e, he⟩ := herror err
          obtain ⟨e', he'⟩ := herror' err
          rw [he, he']
          exact .ret (.error _ _)
        · exact ih b (hok' b)

theorem draws_encryptString (e : Encryptor) (plaintext : String) :
    Draws 1 (e.encryptString plaintext) := .draw (fun _ => ⟨_, rfl⟩) fun _ => .done _

theorem draws_encryptHeaders (e : Encryptor) : ∀ headers : List (String × String),
    Draws headers.length (encryptHeaders e headers)
  | [] => .done _
  | (k, val) :: rest => by
      rw [encryptHeaders, List.length_cons, Nat.add_comm]
      refine (draws_encryptString e val).bind (fun _ => ⟨_, rfl⟩) fun enc => ?_
      refine Draws.bind (m := 0) (draws_encryptHeaders e rest) (fun _ => ⟨_, rfl⟩) fun out => ?_
      exact .done _

theorem draws_encryptVaultAuth (e : Encryptor) (v : VaultConfig) :
    Draws v.secretCount (encryptVaultAuth e v) := by
  rw [encryptVaultAuth, VaultConfig.secretCount]
  rcases v.auth with _ | auth
  · exact .done _
  refine (draws_encryptHeaders e auth.headers).bind (fun _ => ⟨_, rfl⟩) fun headers => ?_
  have hoauth : Draws (match auth.oauth with
      | none => 0
      | some oauth => if oauth.clientSecret = "" then 0 else 1) (encryptOAuth e auth.oauth) := by
    rcases auth.oauth with _ | oauth
    · exact .done _
    · dsimp only
      rw [encryptOAuth]
      split_ifs
      · exact .done _
      · refine Draws.bind (m := 0) (draws_encryptString e _) (fun _ => ⟨_, rfl⟩) fun enc => ?_
        exact .done _
  refine Draws.bind (m := 0) hoauth (fun _ => ⟨_, rfl⟩) fun oauth => ?_
  exact .done _

end Draws

/-- What is stored of vaults that are shown the same is read alike. -/
theorem ConfigStore.Stores.rowAlike {v v' : VaultConfig} {json json' : String} (hv : s.Stores v json)
    (hv' : s'.Stores v' json') (h : SameShown v v') : RowAlike s s' json json' := by
  have hne : ∀ {s : ConfigStore} {v : VaultConfig} {json : String}, s.Stores v json → json ≠ "" := by
    rintro s v _ hv rfl
    have hread := hv.read ""
    rw [ConfigStore.readVault, unmarshal_empty] at hread
    cases hread
  refine ⟨iff_of_false (hne hv) (hne hv'), fun pre => ?_⟩
  rw [hv.read, hv'.read]
  exact .ok h.reread

theorem inStep_saveVault {v v' : VaultConfig} (h : SameShown v v')
    (hcipher : s.encryptor.isSome = s'.encryptor.isSome)
    (hsecrets : s.encryptor.isSome → v.secretCount = v'.secretCount) :
    InStep s s' (Together fun _ _ => True) (s.saveVault v) (s'.saveVault v') := by
  have hwrite : ∀ {json json'}, s.Stores v json → s'.Stores v' json' →
      InStep s s' (Together fun _ _ => True) (ConfigStore.upsertConfigRow .vaults v.id json)
        (ConfigStore.upsertConfigRow .vaults v'.id json') := by
    intro json json' hv hv'
    rw [← h.id_eq]
    refine (inStep_upsert v.id (hv.rowAlike hv' h)).mono ?_
    rintro a _ rfl
    exact .refl (fun _ => trivial) a
  rcases hc : s.encryptor with _ | e
  · have hc' : s'.encryptor = none := by simpa [hc] using hcipher.symm
    rw [ConfigStore.saveVault, ConfigStore.saveVault, hc, hc']
    exact hwrite (by rw [ConfigStore.Stores, hc]) (by rw [ConfigStore.Stores, hc'])
  · obtain ⟨e', hc'⟩ := Option.isSome_iff_exists.mp (by rw [← hcipher, hc]; rfl)
    rw [ConfigStore.saveVault, ConfigStore.saveVault, hc, hc']
    have hdraws : InStep s s' (Together fun _ _ => True) (encryptVaultAuth e v) (encryptVaultAuth e' v') :=
      (draws_encryptVaultAuth e v).inStep (hsecrets (by rw [hc]; rfl) ▸ draws_encryptVaultAuth e' v')
    refine Sim.bind (hdraws.and_returns (returns_encryptVaultAuth e v) (returns_encryptVaultAuth e' v')) ?_
    rintro _ _ ⟨⟨err, err'⟩ | @⟨raw, raw', -⟩, hsealed, hsealed'⟩
    · exact .ret (.error err err')
    · refine hwrite ?_ ?_
      · rw [ConfigStore.Stores, hc]
        exact ⟨raw, hsealed raw rfl, rfl⟩
      · rw [ConfigStore.Stores, hc']
        exact ⟨raw', hsealed' raw' rfl, rfl⟩

end Rows

end VaultsSyncer
