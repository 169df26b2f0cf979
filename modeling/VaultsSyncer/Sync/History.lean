import VaultsSyncer.Schemes.Replicas
import VaultsSyncer.Sync.Runs

/-! Runs of `syncSecretBidirectional` over time: a history of calls, each with the answers it meets,
    and of edits made from outside. What one call does to the two vaults is a step of a reconciler of
    two replicas (`syncOnce_refines`), so what holds of every such reconciler holds of every history. -/

namespace VaultsSyncer

open GoStd Schemes Schemes.Prog

/-- The cell the two vaults of a sync share. -/
def World.pair (w : World) (source target secretName : String) : Replicas.Pair Bytes :=
  ⟨w.vaults source secretName, w.vaults target secretName⟩

section History

variable (e : Engine) (syncCfg : SyncConfig) (targetID : String)

/-- One call of `syncSecretBidirectional` between the vaults of `syncCfg`: its result and the world
    it leaves. -/
def syncOnce (secretName : String) (env : Env) (w : World) : Except GoError Unit × World :=
  let r := exec
    (syncSecretBidirectional e syncCfg targetID secretName syncCfg.source targetID) env w
  (r.1, r.2.2)

/-- Calls one after another. -/
def syncs (secretName : String) : List Env → World → World
  | [], w => w
  | env :: envs, w => syncs secretName envs (syncOnce e syncCfg targetID secretName env w).2

/-- Which of the calls report success. -/
def reports (secretName : String) : List Env → World → List Bool
  | [], _ => []
  | env :: envs, w => (syncOnce e syncCfg targetID secretName env w).1.isOk ::
      reports secretName envs (syncOnce e syncCfg targetID secretName env w).2

/-- What happens to the vaults of a sync over time. -/
inductive Event where
  | edit (vault secretName : String) (value : Option Bytes)
  | sync (secretName : String) (env : Env)

/-- A value put in place, or taken away, from outside. -/
def World.edit (w : World) (vault name : String) (value : Option Bytes) : World :=
  { w with vaults := fun v n => if v = vault ∧ n = name then value else w.vaults v n }

def Event.happen : Event → World → World
  | .edit vault secretName value, w => w.edit vault secretName value
  | .sync secretName env, w => (syncOnce e syncCfg targetID secretName env w).2

/-- The world after a history. -/
def play (history : List Event) (w : World) : World :=
  history.foldl (fun w event => event.happen e syncCfg targetID w) w

variable {e syncCfg targetID}

theorem syncs_append (secretName : String) (envs envs' : List Env) (w : World) :
    syncs e syncCfg targetID secretName (envs ++ envs') w =
      syncs e syncCfg targetID secretName envs' (syncs e syncCfg targetID secretName envs w) := by
  induction envs generalizing w with
  | nil => rfl
  | cons env envs ih => exact ih _

variable (e syncCfg targetID) in
theorem run_syncOnce (secretName : String) (env : Env) (w : World) :
    BidirectionalRun e syncCfg targetID secretName syncCfg.source targetID env w
      (syncOnce e syncCfg targetID secretName env w).1
      (syncOnce e syncCfg targetID secretName env w).2 :=
  run_syncSecretBidirectional ..

end History

/-! ### A sync of two vaults, for concrete runs -/

/-- Vault `a` is synced with vault `b`. -/
def pairSync : SyncConfig :=
  { id := "s", source := "a", targets := ["b"], syncType := "bidirectional" }

def pairEngine : Engine := ⟨["a", "b"]⟩

/-- The secret `k` in `a` and in `b`, and a fresh sync database. -/
def pairWorld (s t : Option Bytes) : World where
  vaults := fun v n => if n = "k" then if v = "a" then s else if v = "b" then t else none else none

/-- No call fails. -/
def noFaults : Env := Stream'.const {}

/-- Every call fails. -/
def allDown : Env := Stream'.const { fault := some (.new "down") }

/-! ### What a call may touch -/

section Frame

variable {e : Engine} {syncCfg : SyncConfig} {targetID secretName : String} {env : Env} {w w' : World}
  {res : Except GoError Unit}

theorem UnidirectionalRun.vaults_of_ne {source : String}
    (h : UnidirectionalRun e syncCfg targetID secretName source env w res w') {v n : String}
    (hn : v ≠ targetID ∨ n ≠ secretName) : w'.vaults v n = w.vaults v n := by
  cases h with
  | rejected => rfl
  | exhausted _ _ hnote => rw [hnote.vaults]
  | delivered _ _ hnote => rw [hnote.vaults]; exact w.setVault_of_ne _ hn

theorem UnidirectionalRun.vaults_of_error {source : String}
    (h : UnidirectionalRun e syncCfg targetID secretName source env w res w')
    (hres : res.isOk = false) : w'.vaults = w.vaults := by
  cases h with
  | rejected => rfl
  | exhausted _ _ hnote => exact hnote.vaults
  | delivered _ _ _ => cases hres

/-- A successful run leaves the transformed source value in the target. -/
theorem UnidirectionalRun.delivers {source : String}
    (h : UnidirectionalRun e syncCfg targetID secretName source env w res w')
    (hres : res.isOk = true) : ∃ s x, w.vaults source secretName = some s ∧
      applyTransforms s syncCfg.transforms = .ok x ∧ w'.vaults targetID secretName = some x := by
  cases h with
  | rejected | exhausted => cases hres
  | delivered hready _ hnote =>
    exact ⟨_, _, hready.stored, hready.transformed, by rw [hnote.vaults, World.setVault_self]⟩

/-- Without transforms a successful run leaves the target with the source's value. -/
theorem UnidirectionalRun.vaults_of_ok {source : String}
    (h : UnidirectionalRun e syncCfg targetID secretName source env w res w')
    (hres : res.isOk = true) (hnone : syncCfg.transforms = []) {s : Bytes}
    (hs : w.vaults source secretName = some s) : w'.vaults targetID secretName = some s := by
  obtain ⟨s', x, hs', hx, ht⟩ := h.delivers hres
  obtain rfl := Option.some.inj (hs.symm.trans hs')
  rw [hnone, applyTransforms] at hx
  rw [ht, Except.ok.inj hx]

/-- A direction that succeeds leaves the value it copies on both sides. -/
theorem DirectionRun.copies (hne : syncCfg.source ≠ targetID) {s t : Bytes} {d : Direction}
    {env' : Env} (hread : BothRead secretName syncCfg.source targetID env w s t)
    (h : DirectionRun syncCfg targetID secretName syncCfg.source targetID s t d env' w res w')
    (hres : res.isOk = true) : w'.vaults syncCfg.source secretName = some (d.pick s t) ∧
      w'.vaults targetID secretName = some (d.pick s t) := by
  cases h with
  | failed => cases hres
  | copied _ hnote =>
    rw [hnote.vaults]
    cases d with
    | sourceToTarget =>
      exact ⟨(w.setVault_of_ne _ (.inl hne)).trans hread.source, w.setVault_self ..⟩
    | targetToSource =>
      exact ⟨w.setVault_self .., (w.setVault_of_ne _ (.inl hne.symm)).trans hread.target⟩

variable (h : BidirectionalRun e syncCfg targetID secretName syncCfg.source targetID env w res w')

include h

theorem BidirectionalRun.vaults_of_ne {v n : String}
    (hn : n ≠ secretName ∨ (v ≠ syncCfg.source ∧ v ≠ targetID)) :
    w'.vaults v n = w.vaults v n := by
  cases h with
  | unread | unselected => rfl
  | inSync _ _ hnote => rw [hnote.vaults]
  | handedOver _ _ _ hrun =>
    exact hrun.vaults_of_ne (hn.elim .inr fun hv => .inl hv.2)
  | directed _ _ _ hrun =>
    cases hrun with
    | failed _ hnote => rw [hnote.vaults]
    | copied _ hnote =>
      rw [hnote.vaults]
      refine w.setVault_of_ne _ (hn.elim .inr fun hv => .inl ?_)
      cases w.direction (syncKey syncCfg targetID secretName) with
      | sourceToTarget => exact hv.2
      | targetToSource => exact hv.1

/-- A call that returns an error leaves every vault as it was. -/
theorem BidirectionalRun.vaults_of_error (hres : res.isOk = false) : w'.vaults = w.vaults := by
  cases h with
  | unread | unselected => rfl
  | inSync => cases hres
  | handedOver _ _ _ hrun => exact hrun.vaults_of_error hres
  | directed _ _ _ hrun =>
    cases hrun with
    | failed _ hnote => exact hnote.vaults
    | copied => cases hres

end Frame

/-! ### Refinement -/

section Refinement

variable {e : Engine} {syncCfg : SyncConfig} {targetID secretName : String}

/-- A call is a step of the two-replica reconciler, as long as different values have different
    checksums. -/
theorem syncOnce_refines (hnone : syncCfg.transforms = []) (hne : syncCfg.source ≠ targetID)
    (env : Env) (w : World)
    (hinj : ∀ s t, w.vaults syncCfg.source secretName = some s →
      w.vaults targetID secretName = some t → hashString s = hashString t → s = t) :
    Replicas.Step (w.pair syncCfg.source targetID secretName)
      (syncOnce e syncCfg targetID secretName env w).1.isOk
      ((syncOnce e syncCfg targetID secretName env w).2.pair syncCfg.source targetID secretName) := by
  have hrun := run_syncOnce e syncCfg targetID secretName env w
  generalize (syncOnce e syncCfg targetID secretName env w).1 = res at hrun
  generalize (syncOnce e syncCfg targetID secretName env w).2 = w' at hrun
  by_cases hok : res.isOk = true
  · rw [hok]
    cases hrun with
    | unread | unselected => cases hok
    | handedOver _ hs _ huni =>
      have hsrc := huni.vaults_of_ne (v := syncCfg.source) (n := secretName) (.inl hne)
      have htgt := huni.vaults_of_ok hok hnone hs
      rw [World.pair, World.pair, hsrc, htgt, hs]
      exact .push _ _
    | inSync hread heq hnote =>
      obtain rfl := hinj _ _ hread.source hread.target heq
      rw [World.pair, World.pair, hnote.vaults, hread.source, hread.target]
      exact .keep _
    | directed hread _ _ hdir =>
      obtain ⟨hsrc, htgt⟩ := hdir.copies hne hread hok
      rw [World.pair, World.pair, hsrc, htgt, hread.source, hread.target]
      cases w.direction (syncKey syncCfg targetID secretName) with
      | sourceToTarget => exact .push _ _
      | targetToSource => exact .pull _ _
  · have hfalse : res.isOk = false := by simpa using hok
    rw [hfalse, World.pair, World.pair, hrun.vaults_of_error hfalse]
    exact .fail _

theorem syncs_refines (hnone : syncCfg.transforms = []) (hne : syncCfg.source ≠ targetID)
    (envs : List Env) (w : World)
    (hinj : ∀ x y, (w.pair syncCfg.source targetID secretName).Holds x →
      (w.pair syncCfg.source targetID secretName).Holds y → hashString x = hashString y → x = y) :
    Replicas.Run (w.pair syncCfg.source targetID secretName)
      (reports e syncCfg targetID secretName envs w)
      ((syncs e syncCfg targetID secretName envs w).pair syncCfg.source targetID secretName) := by
  induction envs generalizing w with
  | nil => exact .nil _
  | cons env envs ih =>
    have hstep := syncOnce_refines (e := e) hnone hne env w
      fun s t hs ht => hinj s t (.inl hs) (.inr ht)
    exact .cons hstep (ih _ fun x y hx hy => hinj x y (hstep.holds hx) (hstep.holds hy))

end Refinement

end VaultsSyncer
