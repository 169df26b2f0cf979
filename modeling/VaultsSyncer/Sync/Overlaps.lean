import VaultsSyncer.Schemes.Overlap
import VaultsSyncer.Sync.CrashRecovery
import VaultsSyncer.Sync.RunStatus

/-! Runs that overlap. The scheduler and the API start a sync whenever they like, and nothing holds a
    lock: goroutines of any number of runs read and write the vaults at once, while people and programs
    outside write to them too.

        scheduled run   list ── get a ──────────────── set b ─ …
        API call             list ── get a ── set b ─ …
        outside                            write a

    Whatever the order, a value that is found anywhere has come there along the syncs, under its own
    name (`secrets_flow_along_syncs`). As long as nobody writes what the syncs read, overlapping one-way
    runs do no harm: no target ever holds anything but what it held before and what is wanted there, and
    once one run has ended without a failure, it is what is wanted (`overlapping_runs_settle`). -/

namespace VaultsSyncer

open GoStd Schemes Schemes.Prog

/-! ### What moves the vaults -/

/-- A relation along which vaults move; what becomes of the records does not matter. -/
structure Moves (R : World → World → Prop) : Prop where
  same : ∀ {x y : World}, y.vaults = x.vaults → R x y
  trans : ∀ {x y z}, R x y → R y z → R x z

abbrev Moves.contract {R : World → World → Prop} (hR : Moves R) : Contract Call Env World :=
  .along handle R (fun _ => hR.same rfl) hR.trans

section Moves

variable {R : World → World → Prop} (hR : Moves R) {K : World → Prop} (hK : ∀ x y, R x y → K x → K y)

theorem Moves.quiet (op : Call) (env : Env) (x : World) (h : op.Quiet) : hR.contract.call op env x :=
  hR.same (by rw [handle_of_quiet h])

include hR in
/-- Only writing a secret has to be allowed. -/
theorem Moves.row {op : Call} (hop : ∀ v n b, op ≠ .setSecret v n b) (env : Env) (x : World) :
    R x (handle op (env, x)).2.2 := hR.same (handle_vaults hop env x)

include hK

theorem keeps_row {o : ℤ → SyncObject} {res : Except GoError Unit} {env : Env} {x : World}
    (hx : res = .ok () → K x) :
    (record o res).Keeps handle hR.contract (fun res _ y => res = .ok () → K y) env x := by
  have hstable : ∀ y z : World, R y z → (res = .ok () → K y) → res = .ok () → K z :=
    fun y z hyz h hres => hK y z hyz (h hres)
  have hput : ∀ {op : Call}, (∀ v n b, op ≠ .setSecret v n b) → ∀ (env : Env) (y : World),
      (res = .ok () → K y) → R y (handle op (env, y)).2.2 ∧
        (res = .ok () → K (handle op (env, y)).2.2) :=
    fun hop env y hy => ⟨hR.row hop env y, hstable _ _ (hR.row hop env y) hy⟩
  refine keeps_record hR.quiet (fun y hy => ?_) fun _ y z hres hyz => hstable y z hyz hres
  refine (keeps_upsert (K := fun y => res = .ok () → K y) hR.quiet hstable ?_ ?_
    (hstable x y hy hx)).mono fun _ _ _ h => h
  · exact fun t => hput (by simp)
  · exact fun t => hput (by simp)

/-- A write that is a move, and its record: if all goes well, `K` holds from the write on. -/
theorem keeps_copy {policy : RetryPolicy} {vault name : String} {value : Bytes}
    {failed : GoError → ℤ → SyncObject} {done : ℤ → SyncObject} {env : Env} {x : World}
    (hset : ∀ y, R x y → R y (y.setVault vault name value) ∧ K (y.setVault vault name value)) :
    (copyAndRecord policy vault name value failed done).Keeps handle hR.contract
      (fun res _ y => res = .ok () → K y) env x := by
  refine keeps_copyAndRecord hR.quiet (fun env' y _ hy => ?_) (fun _ env' y z hy hz => ?_)
    fun err env' y _ => keeps_row hR hK fun h => by cases h
  · change R y (handle (.setSecret vault name value) (env', y)).2.2
    simp only [handle, Answer.commit]
    rcases env'.head.fault with _ | err
    · exact (hset y hy).1
    · exact hR.same rfl
  · exact keeps_row hR hK fun _ => hK _ z hz (hset y hy).2

variable {e : Engine} {syncCfg : SyncConfig} {targetID secretName source : String} {env : Env}
  {x : World}

theorem keepsNow_oneWay
    (hwrite : ∀ v b, x.vaults source secretName = some v → applyTransforms v syncCfg.transforms = .ok b →
      ∀ y, R x y → R y (y.setVault targetID secretName b) ∧ K (y.setVault targetID secretName b)) :
    (syncSecretUnidirectional e syncCfg targetID secretName source).KeepsNow handle hR.contract
      (fun res _ y => res = .ok () → K y) env x :=
  keepsNow_unidirectional hR.quiet (fun _ _ _ => keeps_ret fun _ _ h => by cases h)
    fun v b hready => keeps_copy hR hK (hwrite v b hready.stored hready.transformed)

end Moves

/-! ### Runs side by side -/

section Runs

variable {ι : Type} [DecidableEq ι] {e : ι → Engine} {cfg : ι → SyncConfig} {a : ι → RunAnswers}
  {env : ι → String × String → Env} {n : ι → ℕ}
  {pool : (i : ι) → Pool.Setup Call Call.Ans Env World (n i)} {pair : (i : ι) → Fin (n i) → String × String}
  (hg : ∀ i, Goroutines (e i) (cfg i) (a i) (env i) (pool i) (pair i)) {edit : World → World → Prop}
  {w x : World} {s : (i : ι) → Pool.State Call Call.Ans Env World (n i)}

include hg

/-- Where every attempt keeps to its moves, so do the runs; and a run that has counted no failure has
    made good what its attempts promise. -/
theorem overlaps_move {R : World → World → Prop} (hR : Moves R)
    {K : (i : ι) → Fin (n i) → World → Prop} (hK : ∀ i j x y, R x y → K i j x → K i j y)
    (hedit : ∀ x y, edit x y → R x y)
    (hattempt : ∀ i j x, R w x → (attempt (e i) (cfg i) (pair i j)).KeepsNow handle hR.contract
      (fun res _ y => res = .ok () → K i j y) (env i (pair i j)) x)
    (h : Pool.Overlaps pool edit w s x) : R w x ∧
      ∀ i, (s i).returned = true → (s i).failure = 0 → ∀ j, K i j x := by
  obtain ⟨hx, hstands⟩ := h.stands (T := hR.contract) (Q := fun i j ok y => ok = true → K i j y)
    (fun _ _ _ => trivial) (fun i op env y hop => by rw [(hg i).handler]; exact hop) hedit
    (fun i j ok y z hyz hok h => hK i j y z hyz (hok h)) fun i j y hy => by
      rw [(hg i).handler, (hg i).task, (hg i).answers]
      refine Keeps.bind ((keeps_iff.mpr fun z hz => hattempt i j z (hR.trans hy hz)).mono ?_)
      exact fun res env z hz => keeps_ret fun z' hz' hok => hK i j z z' hz' (hz (by
        cases res with
        | error err => cases hok
        | ok _ => rfl))
  refine ⟨hx, fun i hr hf j => ?_⟩
  choose ok hok using (h.inv i).all_finished hr
  have hj := hstands i j
  rw [hok j] at hj
  exact hj ((counts_eq_zero (h.inv i) hr hok).2.mp hf j)

end Runs

/-! ### Where a value comes from -/

/-- The sync `c` copies the secret `n` between its source and `t`; if it goes both ways, it works on the
    first target only. -/
structure SyncConfig.Links (c : SyncConfig) (n t : String) : Prop where
  passes : c.filter.Passes n
  target : t ∈ c.targets
  first : c.syncType = "bidirectional" → c.targets.head? = some t

theorem Goroutines.links {e : Engine} {syncCfg : SyncConfig} {a : RunAnswers}
    {env : String × String → Env} {n : ℕ} {pool : Pool.Setup Call Call.Ans Env World n}
    {pair : Fin n → String × String} (h : Goroutines e syncCfg a env pool pair) (i : Fin n) :
    syncCfg.Links (pair i).1 (pair i).2 := by
  obtain ⟨hpass, htarget⟩ := h.pair_mem i
  refine ⟨hpass, htarget, fun hboth => ?_⟩
  cases h with
  | unidirectional _ _ _ htype => exact absurd (htype.symm.trans hboth) (by decide)
  | bidirectional _ _ _ _ hfirst => exact hfirst

/-- Every secret that is listed and passes the filter is attempted for every target. -/
theorem Goroutines.exists_pair {e : Engine} {syncCfg : SyncConfig} {a : RunAnswers}
    {env : String × String → Env} {n : ℕ} {pool : Pool.Setup Call Call.Ans Env World n}
    {pair : Fin n → String × String} (h : Goroutines e syncCfg a env pool pair)
    (htype : syncCfg.syncType = "unidirectional") {name t : String} (hname : name ∈ a.relisting.names)
    (hpass : syncCfg.filter.Passes name) (ht : t ∈ syncCfg.targets) : ∃ j, pair j = (name, t) := by
  cases h with
  | bidirectional _ _ _ htype' => exact absurd (htype.symm.trans htype') (by decide)
  | unidirectional =>
    have hjob : (name, t) ∈ unidirectionalJobs syncCfg a.relisting.names :=
      List.pair_mem_product.mpr ⟨mem_filterSecrets.mpr ⟨hname, hpass⟩, ht⟩
    obtain ⟨j, hj, heq⟩ := List.getElem_of_mem hjob
    exact ⟨⟨j, hj⟩, heq⟩

section Flows

variable (syncs : Set SyncConfig) (given : String → String → Set Bytes)

/-- The values that `given` accounts for: those it puts into a vault, and what the syncs make of them. -/
inductive Flows : String → String → Bytes → Prop
  | given {v n b} (h : b ∈ given v n) : Flows v n b
  | forward {c t n b b'} (hc : c ∈ syncs) (hl : c.Links n t) (h : Flows c.source n b)
      (hb : applyTransforms b c.transforms = .ok b') : Flows t n b'
  | across {c t n b} (hc : c ∈ syncs) (hl : c.Links n t) (htype : c.syncType = "bidirectional")
      (h : Flows c.source n b) : Flows t n b
  | back {c t n b} (hc : c ∈ syncs) (hl : c.Links n t) (htype : c.syncType = "bidirectional")
      (h : Flows t n b) : Flows c.source n b

/-- Somebody outside writes; `given` accounts for it. -/
def Puts (x y : World) : Prop :=
  ∀ v n b, y.vaults v n = some b → x.vaults v n = some b ∨ b ∈ given v n

/-- No sync leads out of `Z`. -/
def NoWayOut (Z : Set (String × String)) : Prop :=
  ∀ c ∈ syncs, ∀ n t, c.Links n t → ((c.source, n) ∈ Z → (t, n) ∈ Z) ∧
    (c.syncType = "bidirectional" → (t, n) ∈ Z → (c.source, n) ∈ Z)

/-- Everything in the vaults is accounted for. -/
def World.Sourced (x : World) : Prop := ∀ v n b, x.vaults v n = some b → Flows syncs given v n b

variable {syncs given}

/-- Outside of `Z`, what was put into `Z` plays no part. -/
theorem Flows.outside {Z : Set (String × String)} (hZ : NoWayOut syncs Z) {v n : String} {b : Bytes}
    (h : Flows syncs given v n b) (hout : (v, n) ∉ Z) :
    Flows syncs (fun v n => {b | b ∈ given v n ∧ (v, n) ∉ Z}) v n b := by
  induction h with
  | given h => exact .given ⟨h, hout⟩
  | forward hc hl _ hb ih => exact .forward hc hl (ih fun hin => hout ((hZ _ hc _ _ hl).1 hin)) hb
  | across hc hl htype _ ih => exact .across hc hl htype (ih fun hin => hout ((hZ _ hc _ _ hl).1 hin))
  | back hc hl htype _ ih => exact .back hc hl htype (ih fun hin => hout ((hZ _ hc _ _ hl).2 htype hin))

theorem World.Sourced.setVault {x : World} (hx : x.Sourced syncs given) {v n : String} {b : Bytes}
    (hb : Flows syncs given v n b) : (x.setVault v n b).Sourced syncs given := by
  intro v' n' b' h'
  by_cases heq : v' = v ∧ n' = n
  · obtain ⟨rfl, rfl⟩ := heq
    rw [World.setVault_self, Option.some.injEq] at h'
    exact h' ▸ hb
  · rw [x.setVault_of_ne b (by tauto)] at h'
    exact hx v' n' b' h'

variable (syncs given) in
/-- Nothing comes in that is not accounted for. -/
def KeepsSourced (x y : World) : Prop := x.Sourced syncs given → y.Sourced syncs given

theorem sourced_moves : Moves (KeepsSourced syncs given) where
  same h hx v n b hb := hx v n b (by rwa [← h])
  trans h h' hx := h' (h hx)

variable (syncs given) in
abbrev sourcedContract : Contract Call Env World := (@sourced_moves syncs given).contract

/-- An attempt writes what the source, or the other side, accounts for. -/
theorem attempt_sourced {e : Engine} {c : SyncConfig} {job : String × String} (hc : c ∈ syncs)
    (hl : c.Links job.1 job.2) {env : Env} {x : World} (hx : x.Sourced syncs given) :
    (attempt e c job).KeepsNow handle (sourcedContract syncs given)
      (fun res _ _ => res = .ok () → True) env x := by
  have honeWay : ∀ env y, y.Sourced syncs given →
      (syncSecretUnidirectional e c job.2 job.1 c.source).KeepsNow handle (sourcedContract syncs given)
        (fun res _ _ => res = .ok () → True) env y := fun env y hy =>
    keepsNow_oneWay sourced_moves (fun _ _ _ _ => trivial) fun v b hv hb z hz =>
      ⟨fun hsourced => hsourced.setVault (.forward hc hl (hy _ _ _ hv) hb), trivial⟩
  rw [attempt]
  split_ifs with htype
  · refine keepsNow_bidirectional (sourced_moves).quiet ?_ ?_ ?_ ?_ ?_
    · exact fun _ _ _ => keeps_ret fun _ _ _ => trivial
    · exact fun v y _ _ hy _ => keeps_iff.mpr fun z hz => honeWay _ z (hz (hy hx))
    · exact fun _ _ _ _ _ => keeps_row sourced_moves (fun _ _ _ _ => trivial) fun _ => trivial
    · exact fun _ _ _ _ _ _ _ _ _ _ => keeps_ret fun _ _ _ => trivial
    · intro v b y z d hread _ _
      refine keeps_copy sourced_moves (fun _ _ _ _ => trivial) fun u hu => ⟨fun hsourced => ?_, trivial⟩
      have hv := hx _ _ _ hread.source
      have hb := hread.moved hx _ _ _ hread.target
      cases d with
      | sourceToTarget => exact hsourced.setVault (.across hc hl htype hv)
      | targetToSource => exact hsourced.setVault (.back hc hl htype hb)
  · exact honeWay env x hx

variable {ι : Type} [DecidableEq ι] {e : ι → Engine} {cfg : ι → SyncConfig} {a : ι → RunAnswers}
  {env : ι → String × String → Env} {n : ι → ℕ}
  {pool : (i : ι) → Pool.Setup Call Call.Ans Env World (n i)} {pair : (i : ι) → Fin (n i) → String × String}
  {w x : World} {s : (i : ι) → Pool.State Call Call.Ans Env World (n i)}

/-- At every moment of any runs that overlap, whatever fails and whatever is written from outside: a value
    found in a vault has come there along the syncs, under its own name; and where no sync leads out of
    `Z`, what is found outside does not come from what was put into `Z`. -/
theorem secrets_flow_along_syncs
    (hg : ∀ i, Goroutines (e i) (cfg i) (a i) (env i) (pool i) (pair i)) (hcfg : ∀ i, cfg i ∈ syncs)
    (hstart : ∀ v n b, w.vaults v n = some b → b ∈ given v n)
    (h : Pool.Overlaps pool (Puts given) w s x) {Z : Set (String × String)} (hZ : NoWayOut syncs Z)
    {v name : String} {b : Bytes} (hb : x.vaults v name = some b) (hout : (v, name) ∉ Z) :
    Flows syncs (fun v n => {b | b ∈ given v n ∧ (v, n) ∉ Z}) v name b := by
  have hsourced : w.Sourced syncs given := fun v n b hb => .given (hstart v n b hb)
  obtain ⟨hx, -⟩ := overlaps_move hg sourced_moves (K := fun _ _ _ => True) (fun _ _ _ _ _ _ => trivial)
    (fun x y hputs hx v n b hb => (hputs v n b hb).elim (hx v n b) .given)
    (fun i j x hx => attempt_sourced (hcfg i) ((hg i).links j) (hx hsourced)) h
  exact (hx hsourced v name b hb).outside hZ hout

end Flows

/-! ### One way, from sources that stay -/

section Settle

variable {ι : Type} (cfg : ι → SyncConfig) (w : World)

/-- One of the syncs is to write `b` under this name to this vault. -/
def Wanted (v n : String) (b : Bytes) : Prop :=
  ∃ i, (cfg i).filter.Passes n ∧ v ∈ (cfg i).targets ∧ ∃ b', w.vaults (cfg i).source n = some b' ∧
    applyTransforms b' (cfg i).transforms = .ok b

/-- One-way syncs that read nothing which one of them writes, and agree on what they write. -/
structure Compatible : Prop where
  oneWay : ∀ i, (cfg i).syncType = "unidirectional"
  sources : ∀ i j, (cfg i).source ∉ (cfg j).targets
  agree : ∀ i j t n, t ∈ (cfg i).targets → t ∈ (cfg j).targets → (cfg i).filter.Passes n →
    (cfg j).filter.Passes n → (cfg i).source = (cfg j).source ∧ (cfg i).transforms = (cfg j).transforms

/-- Every secret is as it was, or as it is wanted. -/
def Toward (x y : World) : Prop :=
  ∀ v n, y.vaults v n = x.vaults v n ∨ ∃ b, y.vaults v n = some b ∧ Wanted cfg w v n b

variable {cfg w}

theorem toward_moves : Moves (Toward cfg w) where
  same h v n := .inl (by rw [h])
  trans h h' v n := (h' v n).elim (fun heq => heq ▸ h v n) .inr

/-- What the syncs read is as it was. -/
theorem Compatible.source_eq (hcfg : Compatible cfg) {x : World} (hx : Toward cfg w w x) (i : ι)
    (n : String) : x.vaults (cfg i).source n = w.vaults (cfg i).source n :=
  (hx _ n).resolve_right fun ⟨_, _, j, _, ht, _⟩ => hcfg.sources i j ht

theorem Toward.setVault {x : World} {v n : String} {b : Bytes} (hb : Wanted cfg w v n b) :
    Toward cfg w x (x.setVault v n b) := by
  intro v' n'
  by_cases heq : v' = v ∧ n' = n
  · obtain ⟨rfl, rfl⟩ := heq
    exact .inr ⟨b, x.setVault_self .., hb⟩
  · exact .inl (x.setVault_of_ne b (by tauto))

variable [DecidableEq ι] {e : ι → Engine} {a : ι → RunAnswers} {env : ι → String × String → Env}
  {n : ι → ℕ} {pool : (i : ι) → Pool.Setup Call Call.Ans Env World (n i)}
  {pair : (i : ι) → Fin (n i) → String × String} {edit : World → World → Prop} {x : World}
  {s : (i : ι) → Pool.State Call Call.Ans Env World (n i)}

/-- However many runs of one-way syncs overlap, whatever fails and wherever they are stopped: every
    secret is as it was before or as it is wanted, and once one run has ended without a failure, its
    targets hold what the sources call for, whatever the other runs still do. -/
theorem overlapping_runs_settle (hcfg : Compatible cfg)
    (hg : ∀ i, Goroutines (e i) (cfg i) (a i) (env i) (pool i) (pair i))
    (hedit : ∀ x y, edit x y → y.vaults = x.vaults) (h : Pool.Overlaps pool edit w s x) :
    (∀ v name, x.vaults v name = w.vaults v name ∨
      ∃ b, x.vaults v name = some b ∧ Wanted cfg w v name b) ∧
    ∀ i, (s i).returned = true → (s i).failure = 0 → ∀ name ∈ (a i).relisting.names, ∀ t ∈ (cfg i).targets,
      (cfg i).filter.Passes name → ∃ v b, w.vaults (cfg i).source name = some v ∧
        applyTransforms v (cfg i).transforms = .ok b ∧ x.vaults t name = some b := by
  have hkept : ∀ t name x y, Toward cfg w x y → (∃ b, x.vaults t name = some b ∧ Wanted cfg w t name b) →
      ∃ b, y.vaults t name = some b ∧ Wanted cfg w t name b := fun t name x y hxy hx =>
    (hxy t name).elim (fun heq => heq ▸ hx) id
  obtain ⟨hx, hdone⟩ := overlaps_move hg toward_moves
    (K := fun i j y => ∃ b, y.vaults (pair i j).2 (pair i j).1 = some b ∧
      Wanted cfg w (pair i j).2 (pair i j).1 b)
    (fun i j => hkept _ _) (fun y z hyz v n => .inl (by rw [hedit y z hyz]))
    (fun i j y hy => by
      obtain ⟨hpass, ht⟩ := (hg i).pair_mem j
      rw [attempt, if_neg (by rw [hcfg.oneWay i]; decide)]
      refine keepsNow_oneWay toward_moves (hkept _ _) fun v b hv hb z hz => ?_
      have hwanted : Wanted cfg w (pair i j).2 (pair i j).1 b :=
        ⟨i, hpass, ht, v, hcfg.source_eq hy i _ ▸ hv, hb⟩
      exact ⟨Toward.setVault hwanted, b, z.setVault_self .., hwanted⟩) h
  refine ⟨hx, fun i hr hf name hname t ht hpass => ?_⟩
  obtain ⟨j, hj⟩ := (hg i).exists_pair (hcfg.oneWay i) hname hpass ht
  obtain ⟨b, hb, hwanted⟩ := hdone i hr hf j
  rw [hj] at hb hwanted
  obtain ⟨k, hpass', ht', v, hv, happly⟩ := hwanted
  obtain ⟨hsource, htransforms⟩ := hcfg.agree i k t name ht ht' hpass hpass'
  exact ⟨v, b, hsource ▸ hv, htransforms ▸ happly, hb⟩

end Settle

/-! ### Two runs at once -/

section Two

/-- Two runs of the sync from `a` to `b`. -/
abbrev twoRuns (_ : Bool) :
    Pool.Setup Call Call.Ans Env World (unidirectionalJobs oneWayPair ["k"]).length :=
  workerPool (unidirectionalJobs oneWayPair ["k"])
    (fun job => syncSecretUnidirectional pairEngine oneWayPair job.2 job.1 "a") 1 fun _ => noFaults

theorem twoRuns_goroutines (i : Bool) : Goroutines pairEngine oneWayPair
    { relisting := { names := ["k"] } } (fun _ => noFaults) (twoRuns i)
    fun j => (unidirectionalJobs oneWayPair ["k"])[j] := .unidirectional (by decide) rfl rfl rfl

/-- The one goroutine of each of them. -/
abbrev onlyOne : Fin (unidirectionalJobs oneWayPair ["k"]).length := ⟨0, by decide +kernel⟩

/-- One of the runs may have ended while the other is still under way. -/
theorem twoRuns_overlap (edit : World → World → Prop) : ∃ s x,
    Pool.Overlaps twoRuns edit (pairWorld (some (utf8 "v")) none) s x ∧
      ((s false).tokens, (s true).returned, (s true).failure, x.vaults "b" "k") =
        (1, true, 0, some (utf8 "v")) := by
  have hrun : ((Pool.follow (twoRuns false) (Pool.init (pairWorld (some (utf8 "v")) none))
      [.launch, .acquire onlyOne]).bind fun t => (Pool.follow (twoRuns true)
        { Pool.init (pairWorld (some (utf8 "v")) none) with shared := t.shared }
        (.launch :: .spawnCloser :: Pool.serve onlyOne 7 ++ [.close, .receive, .finish])).map
      fun u => (t.tokens, u.returned, u.failure, u.shared.vaults "b" "k")) =
      some (1, true, 0, some (utf8 "v")) := by decide +kernel
  obtain ⟨t, ht, hrest⟩ := Option.bind_eq_some_iff.mp hrun
  obtain ⟨u, hu, hseen⟩ := Option.map_eq_some_iff.mp hrest
  have hfirst := (Pool.Overlaps.init : Pool.Overlaps twoRuns edit _ _ _).follow (i := false) ht
  have hboth := hfirst.follow (i := true) hu
  exact ⟨_, _, hboth, by simpa using hseen⟩

/-- `v` is put into `a`, and anything into `c`. -/
def putElsewhere : String → String → Set Bytes := fun v _ => {b | v = "a" ∧ b = utf8 "v" ∨ v = "c"}

/-- What the second run has brought to `b` comes from `a`, whatever is put into `c`. -/
theorem secrets_flow_along_syncs_two : ∃ s x,
    Pool.Overlaps twoRuns (Puts putElsewhere) (pairWorld (some (utf8 "v")) none) s x ∧
    Flows {oneWayPair} (fun v n => {b | b ∈ putElsewhere v n ∧ (v, n) ∉ {p : String × String | p.1 = "c"}})
      "b" "k" (utf8 "v") := by
  obtain ⟨s, x, hs, hseen⟩ := twoRuns_overlap (Puts putElsewhere)
  simp only [Prod.mk.injEq] at hseen
  refine ⟨s, x, hs, secrets_flow_along_syncs twoRuns_goroutines (fun _ => Set.mem_singleton _)
    (fun v n b hb => ?_) hs ?_ hseen.2.2.2 (by simp)⟩
  · simp only [pairWorld] at hb
    split_ifs at hb with _ hv _
    · exact .inl ⟨hv, (Option.some.inj hb).symm⟩
  · rintro c rfl n t ⟨-, ht, -⟩
    refine ⟨fun h => ?_, fun h => ?_⟩
    · simp [oneWayPair, pairSync] at h
    · simp [oneWayPair] at h

/-- The second run has brought `b` up to date, while the first one is still under way. -/
theorem overlapping_runs_settle_two : ∃ s x,
    Pool.Overlaps twoRuns (fun x y => y.vaults = x.vaults) (pairWorld (some (utf8 "v")) none) s x ∧
      (s false).tokens = 1 ∧ x.vaults "b" "k" = some (utf8 "v") := by
  obtain ⟨s, x, hs, hseen⟩ := twoRuns_overlap fun x y => y.vaults = x.vaults
  simp only [Prod.mk.injEq] at hseen
  have hcfg : Compatible fun _ : Bool => oneWayPair :=
    ⟨fun _ => rfl, fun _ _ => by decide, fun _ _ _ _ _ _ _ _ => ⟨rfl, rfl⟩⟩
  obtain ⟨v, b, hv, hb, hx⟩ := (overlapping_runs_settle hcfg twoRuns_goroutines (fun _ _ h => h) hs).2
    true hseen.2.1 hseen.2.2.1 "k" (.head _) "b" (.head _) (by simp [FilterConfig.Passes, filterSecrets,
      oneWayPair, pairSync])
  refine ⟨s, x, hs, hseen.1, ?_⟩
  obtain rfl : v = utf8 "v" := (Option.some.inj hv).symm
  rw [hx, ← Except.ok.inj hb]

end Two

end VaultsSyncer
