import VaultsSyncer.Sync.Agreement
import VaultsSyncer.Sync.History

/-! Which side wins when the two vaults of a bidirectional sync differ. The choice hangs on the
    recorded direction alone, and every recorded run turns it around: so an edit can be taken back
    (`edit_kept_iff`), a failed run changes the winner (`direction_kept_iff`), a run that found
    nothing to do can change what comes later (`extra_run_neutral_iff`), and a target that cannot be
    read counts as empty (`target_kept_iff`). Each theorem says exactly when this happens. -/

namespace VaultsSyncer

open GoStd Schemes Schemes.Prog

variable {e : Engine} {syncCfg : SyncConfig} {targetID secretName : String}

/-! ### A target that cannot be read -/

/-- A failed read of the target leaves its value alone, unless the run goes on to write another one
    there: a second read of the source works, its transformed value differs, and one of the writes
    works. -/
theorem target_kept_iff {env : Env} {w : World} {t : Bytes}
    (ht : w.vaults targetID secretName = some t) (hfail : ¬(env.get 1).Works) :
    (syncOnce e syncCfg targetID secretName env w).2.vaults targetID secretName = some t ↔
      ¬∃ s x, targetID ∈ e.backends ∧ (env.get 0).Works ∧ (env.get 2).Works ∧
        w.vaults syncCfg.source secretName = some s ∧
        applyTransforms s syncCfg.transforms = .ok x ∧ x ≠ t ∧
        ∃ k < syncCfg.attempts, (env.get (3 + k)).Works := by
  have hrun := run_syncOnce e syncCfg targetID secretName env w
  generalize (syncOnce e syncCfg targetID secretName env w).1 = res at hrun
  generalize (syncOnce e syncCfg targetID secretName env w).2 = w' at hrun
  cases hrun with
  | inSync h | unselected _ h | directed h => exact absurd h.targetWorks hfail
  | unread err h =>
    refine iff_of_true ht ?_
    rintro ⟨s, x, -, hw, -, hs, -⟩
    exact h ⟨hw, s, hs⟩
  | handedOver hsource hs _ huni =>
    cases huni with
    | rejected err h =>
      refine iff_of_true ht ?_
      rintro ⟨s, x, hreg, -, hw, hs', hx, -⟩
      exact h s x ⟨hreg, hw, hs', hx⟩
    | exhausted _ hnone hnote =>
      refine iff_of_true (by rw [hnote.vaults, ht]) ?_
      rintro ⟨s, x, -, -, -, -, -, -, k, hk, hw⟩
      refine firstWorking_eq_none.mp hnone k hk ?_
      simpa using hw
    | @delivered s' x k _ hready hset hnote =>
      rw [hnote.vaults, World.setVault_self, Option.some.injEq]
      obtain ⟨hk, hw⟩ := firstWorking_works hset
      constructor
      · rintro rfl ⟨s, x', -, -, -, hs', hx', hne, -⟩
        obtain rfl := Option.some.inj (hready.stored.symm.trans hs')
        exact hne (Except.ok.inj (hx'.symm.trans hready.transformed))
      · intro h
        by_contra hne
        have hwk : (env.get (3 + k)).Works := by simpa using hw
        exact h ⟨s', x, hready.registered, hsource, hready.works, hready.stored,
          hready.transformed, hne, k, hk, hwk⟩

/-- `b` holds another value than `a`, and its read times out. -/
def targetTimesOut : Env := [{}, { fault := some (.new "timeout") }] ++ₛ noFaults

theorem target_kept_iff_pair :
    (syncOnce pairEngine pairSync "b" "k" targetTimesOut
      (pairWorld (some (utf8 "v")) (some (utf8 "w")))).2.vaults "b" "k" = some (utf8 "w") ↔
      ¬∃ s x, "b" ∈ pairEngine.backends ∧ (targetTimesOut.get 0).Works ∧
        (targetTimesOut.get 2).Works ∧
        (pairWorld (some (utf8 "v")) (some (utf8 "w"))).vaults "a" "k" = some s ∧
        applyTransforms s pairSync.transforms = .ok x ∧ x ≠ utf8 "w" ∧
        ∃ k < pairSync.attempts, (targetTimesOut.get (3 + k)).Works :=
  @target_kept_iff pairEngine pairSync "b" "k" _ _ _ rfl (by decide)

theorem timeout_overwrites_target :
    (pairWorld (some (utf8 "v")) (some (utf8 "w"))).vaults "b" "k" = some (utf8 "w") ∧
    ¬(targetTimesOut.get 1).Works ∧
    (syncOnce pairEngine pairSync "b" "k" targetTimesOut
      (pairWorld (some (utf8 "v")) (some (utf8 "w")))).2.vaults "b" "k" = some (utf8 "v") := by
  decide +kernel

/-! ### Failed runs -/

/-- The other direction. -/
def Direction.flip : Direction → Direction
  | .sourceToTarget => .targetToSource
  | .targetToSource => .sourceToTarget

theorem Direction.flip_ne (d : Direction) : d.flip ≠ d := by cases d <;> decide

@[simp] theorem Direction.flip_flip (d : Direction) : d.flip.flip = d := by cases d <;> rfl

/-- A recorded direction makes the next run choose the other one. -/
theorem chooseDirection_of_text {o : SyncObject} {d : Direction} (h : o.directionLast = d.text) :
    chooseDirection (some o) = d.flip := by
  cases d <;> simp [chooseDirection, h, Direction.text, Direction.flip]

theorem World.direction_of_lookup {w : World} {key : SyncKey} {r : SyncObjectRow}
    (h : w.syncObjects.lookup key = some r) :
    w.direction key = chooseDirection (some r.toSyncObject) := by
  rw [World.direction, h]; rfl

/-- The run gets as far as choosing a direction, and then every write fails. -/
structure WritesFail (syncCfg : SyncConfig) (targetID secretName : String) (env : Env) (w : World) :
    Prop where
  differ : ∃ s t, BothRead secretName syncCfg.source targetID env w s t ∧
    hashString s ≠ hashString t
  selects : (env.get 2).Works
  exhausted : firstWorking syncCfg.attempts (env.drop 3) = none

/-- The record of a run whose writes all fail is saved. -/
def FailureSaved (syncCfg : SyncConfig) (targetID secretName : String) (env : Env) (w : World) :
    Prop :=
  Recorded (env.drop (syncCfg.attempts + 4)) w (syncKey syncCfg targetID secretName)

/-- A run whose writes all fail turns the direction around if its record is saved, and changes
    nothing at all otherwise. -/
theorem syncOnce_writesFail {env : Env} {w : World}
    (h : WritesFail syncCfg targetID secretName env w) :
    (syncOnce e syncCfg targetID secretName env w).2.vaults = w.vaults ∧
    (FailureSaved syncCfg targetID secretName env w →
      (syncOnce e syncCfg targetID secretName env w).2.direction
        (syncKey syncCfg targetID secretName) =
          (w.direction (syncKey syncCfg targetID secretName)).flip) ∧
    (¬FailureSaved syncCfg targetID secretName env w →
      (syncOnce e syncCfg targetID secretName env w).2 = w) := by
  obtain ⟨s, t, hread, hne⟩ := h.differ
  have hrun := run_syncOnce e syncCfg targetID secretName env w
  generalize (syncOnce e syncCfg targetID secretName env w).1 = res at hrun
  generalize (syncOnce e syncCfg targetID secretName env w).2 = w' at hrun
  cases hrun with
  | unread _ hno => exact absurd ⟨hread.sourceWorks, s, hread.source⟩ hno
  | handedOver _ _ hno => exact absurd ⟨hread.targetWorks, t, hread.target⟩ hno
  | unselected _ _ _ hno => exact absurd h.selects hno
  | inSync hread' heq =>
    obtain ⟨rfl, rfl⟩ := hread.eq hread'
    exact absurd heq hne
  | directed _ _ _ hdir =>
    cases hdir with
    | copied hset => rw [h.exhausted] at hset; cases hset
    | failed _ hnote =>
      rw [Stream'.drop_drop, show 3 + (syncCfg.attempts + 1) = syncCfg.attempts + 4 by omega] at hnote
      refine ⟨hnote.vaults, fun hsaved => ?_, fun hlost => hnote.lost hlost⟩
      obtain ⟨r, hr, hn⟩ := hnote.saved hsaved
      rw [World.direction_of_lookup hr]
      exact chooseDirection_of_text (congrArg Note.directionLast hn)

section Failures

variable (e : Engine) (syncCfg : SyncConfig) (targetID secretName : String)

/-- In each of the runs every write fails. -/
def AllWritesFail : List Env → World → Prop
  | [], _ => True
  | env :: envs, w => WritesFail syncCfg targetID secretName env w ∧
      AllWritesFail envs (syncOnce e syncCfg targetID secretName env w).2

/-- The direction each of the runs chooses, and the one the next run will choose. -/
def directions : List Env → World → List Direction
  | [], w => [w.direction (syncKey syncCfg targetID secretName)]
  | env :: envs, w => w.direction (syncKey syncCfg targetID secretName) ::
      directions envs (syncOnce e syncCfg targetID secretName env w).2

/-- The record of none of the runs is saved. -/
def NoneSaved : List Env → World → Prop
  | [], _ => True
  | env :: envs, w => ¬FailureSaved syncCfg targetID secretName env w ∧
      NoneSaved envs (syncOnce e syncCfg targetID secretName env w).2

variable {e syncCfg targetID secretName}

theorem direction_mem_directions (envs : List Env) (w : World) :
    w.direction (syncKey syncCfg targetID secretName) ∈
      directions e syncCfg targetID secretName envs w := by
  cases envs <;> simp [directions]

/-- However many runs fail in a row, they and the run after them choose one direction exactly if the
    record of none of them is saved. -/
theorem direction_kept_iff {envs : List Env} {w : World}
    (h : AllWritesFail e syncCfg targetID secretName envs w) :
    (∀ d ∈ directions e syncCfg targetID secretName envs w,
      d = w.direction (syncKey syncCfg targetID secretName)) ↔
      NoneSaved e syncCfg targetID secretName envs w := by
  induction envs generalizing w with
  | nil => simp [directions, NoneSaved]
  | cons env envs ih =>
    obtain ⟨hfail, hrest⟩ := h
    obtain ⟨-, hsaved, hlost⟩ := syncOnce_writesFail (e := e) hfail
    rw [directions, List.forall_mem_cons, NoneSaved]
    by_cases hs : FailureSaved syncCfg targetID secretName env w
    · -- the next direction is the other one
      refine iff_of_false ?_ fun hno => hno.1 hs
      rintro ⟨-, hall⟩
      have hnext := hall _ (direction_mem_directions _ _)
      rw [hsaved hs] at hnext
      exact Direction.flip_ne _ hnext
    · have hih := ih hrest
      rw [hlost hs] at hih ⊢
      simp only [true_and, hs, not_false_eq_true]
      exact hih

end Failures

/-- The writes of a first run all fail; everything else works. -/
def writesFail : Env := [{}, {}, {}] ++ₛ
  (List.replicate 4 { fault := some (.new "down") } ++ₛ noFaults)

theorem writesFail_pair : WritesFail pairSync "b" "k" writesFail
    (pairWorld (some (utf8 "v")) (some (utf8 "w"))) where
  differ := ⟨utf8 "v", utf8 "w", ⟨rfl, rfl, rfl, rfl⟩, by decide +kernel⟩
  selects := rfl
  exhausted := by decide +kernel

theorem direction_kept_iff_pair :
    (∀ d ∈ directions pairEngine pairSync "b" "k" [writesFail]
        (pairWorld (some (utf8 "v")) (some (utf8 "w"))),
      d = (pairWorld (some (utf8 "v")) (some (utf8 "w"))).direction (syncKey pairSync "b" "k")) ↔
      NoneSaved pairEngine pairSync "b" "k" [writesFail]
        (pairWorld (some (utf8 "v")) (some (utf8 "w"))) :=
  direction_kept_iff ⟨writesFail_pair, trivial⟩

/-- The failed run chose to write `b`; the next one writes `a`. -/
theorem failed_run_turns_direction :
    let w := pairWorld (some (utf8 "v")) (some (utf8 "w"))
    let r := syncOnce pairEngine pairSync "b" "k" writesFail w
    WritesFail pairSync "b" "k" writesFail w ∧
      w.direction (syncKey pairSync "b" "k") = .sourceToTarget ∧
      r.1.isOk = false ∧ r.2.vaults "a" "k" = some (utf8 "v") ∧
      r.2.vaults "b" "k" = some (utf8 "w") ∧
      r.2.direction (syncKey pairSync "b" "k") = .targetToSource ∧
      (syncOnce pairEngine pairSync "b" "k" noFaults r.2).2.vaults "a" "k" = some (utf8 "w") := by
  refine ⟨writesFail_pair, ?_⟩
  decide +kernel

/-! ### One-sided edits -/

/-- A record, once there, stays there. -/
theorem Noted.lookup_ne_none {key : SyncKey} {note : Note} {env : Env} {w w' : World}
    (h : Noted key note env w w') {k : SyncKey} (hk : w.syncObjects.lookup k ≠ none) :
    w'.syncObjects.lookup k ≠ none := by
  rcases eq_or_ne k key with rfl | hne
  · by_cases hrec : Recorded env w k
    · obtain ⟨r, hr, -⟩ := h.saved hrec
      simp [hr]
    · rwa [h.lost hrec]
  · rwa [h.others hne]

theorem syncOnce_lookup_ne_none {env : Env} {w : World} {k : SyncKey}
    (hk : w.syncObjects.lookup k ≠ none) :
    (syncOnce e syncCfg targetID secretName env w).2.syncObjects.lookup k ≠ none := by
  have hrun := run_syncOnce e syncCfg targetID secretName env w
  generalize (syncOnce e syncCfg targetID secretName env w).1 = res at hrun
  generalize (syncOnce e syncCfg targetID secretName env w).2 = w' at hrun
  cases hrun with
  | unread | unselected => exact hk
  | inSync _ _ hnote => exact hnote.lookup_ne_none hk
  | handedOver _ _ _ huni =>
    cases huni with
    | rejected => exact hk
    | exhausted _ _ hnote | delivered _ _ hnote => exact hnote.lookup_ne_none hk
  | directed _ _ _ hdir =>
    cases hdir with
    | failed _ hnote | copied _ hnote => exact hnote.lookup_ne_none hk

/-- Calls that all fail leave the vaults and the presence of a record. -/
theorem syncs_of_errors {envs : List Env} {w : World}
    (h : ∀ ok ∈ reports e syncCfg targetID secretName envs w, ok = false) {k : SyncKey}
    (hk : w.syncObjects.lookup k ≠ none) :
    (syncs e syncCfg targetID secretName envs w).vaults = w.vaults ∧
      (syncs e syncCfg targetID secretName envs w).syncObjects.lookup k ≠ none := by
  induction envs generalizing w with
  | nil => exact ⟨rfl, hk⟩
  | cons env envs ih =>
    obtain ⟨hhead, hrest⟩ := List.forall_mem_cons.mp h
    obtain ⟨hv, hk'⟩ := ih hrest (syncOnce_lookup_ne_none hk)
    exact ⟨hv.trans ((run_syncOnce ..).vaults_of_error hhead), hk'⟩

/-- The stored record says that the last direction was target to source. -/
def LastTargetToSource (w : World) (key : SyncKey) : Prop :=
  ∃ r, w.syncObjects.lookup key = some r ∧ r.directionLast = "target_to_source"

theorem direction_eq_sourceToTarget_iff {w : World} {key : SyncKey}
    (h : w.syncObjects.lookup key ≠ none) :
    w.direction key = .sourceToTarget ↔ LastTargetToSource w key := by
  obtain ⟨r, hr⟩ := Option.ne_none_iff_exists'.mp h
  simp [World.direction_of_lookup hr, LastTargetToSource, hr, chooseDirection]

/-- After some history the last call succeeded, left `v` in both vaults, and its record has the
    checksum of `v` on both sides. -/
structure Settled (e : Engine) (syncCfg : SyncConfig) (targetID secretName : String) (v : Bytes)
    (w : World) : Prop where
  reached : ∃ w₀ history env,
    syncOnce e syncCfg targetID secretName env (play e syncCfg targetID history w₀) = (.ok (), w)
  source : w.vaults syncCfg.source secretName = some v
  target : w.vaults targetID secretName = some v
  record : ∃ r, w.syncObjects.lookup (syncKey syncCfg targetID secretName) = some r ∧
    r.sourceChecksum = hashString v ∧ r.targetChecksum = hashString v

theorem World.edit_self (w : World) (vault name : String) (value : Option Bytes) :
    (w.edit vault name value).vaults vault name = value := by simp [World.edit]

theorem World.edit_of_ne (w : World) {vault name v n : String} (value : Option Bytes)
    (h : v ≠ vault ∨ n ≠ name) : (w.edit vault name value).vaults v n = w.vaults v n := by
  have hne : ¬(v = vault ∧ n = name) := by tauto
  simp [World.edit, hne]

/-- What a successful call leaves when both vaults hold a value. -/
theorem BidirectionalRun.of_ok (hnone : syncCfg.transforms = []) (hne : syncCfg.source ≠ targetID)
    {env : Env} {w w' : World} {s t : Bytes}
    (h : BidirectionalRun e syncCfg targetID secretName syncCfg.source targetID env w (.ok ()) w')
    (hs : w.vaults syncCfg.source secretName = some s)
    (ht : w.vaults targetID secretName = some t) :
    (¬(env.get 1).Works ∧ w'.vaults syncCfg.source secretName = some s ∧
      w'.vaults targetID secretName = some s) ∨
    ((env.get 1).Works ∧ hashString s = hashString t ∧ w'.vaults = w.vaults) ∨
    ((env.get 1).Works ∧ hashString s ≠ hashString t ∧
      w'.vaults syncCfg.source secretName =
        some ((w.direction (syncKey syncCfg targetID secretName)).pick s t) ∧
      w'.vaults targetID secretName =
        some ((w.direction (syncKey syncCfg targetID secretName)).pick s t)) := by
  cases h with
  | handedOver _ _ htarget huni =>
    refine .inl ⟨fun hw => htarget ⟨hw, t, ht⟩, ?_, huni.vaults_of_ok rfl hnone hs⟩
    rw [huni.vaults_of_ne (.inl hne), hs]
  | inSync hread heq hnote =>
    obtain rfl := Option.some.inj (hs.symm.trans hread.source)
    obtain rfl := Option.some.inj (ht.symm.trans hread.target)
    exact .inr (.inl ⟨hread.targetWorks, heq, hnote.vaults⟩)
  | directed hread hdiff _ hdir =>
    obtain rfl := Option.some.inj (hs.symm.trans hread.source)
    obtain rfl := Option.some.inj (ht.symm.trans hread.target)
    exact .inr (.inr ⟨hread.targetWorks, hdiff, hdir.copies hne hread rfl⟩)

/-- One vault is edited from `v` to `x`, and after calls that fail a call succeeds. An edit of the
    source reaches the target if the target cannot be read or the last direction was target to
    source; an edit of the target reaches the source if it can be read and the last direction was
    another one. (Different values with one checksum count as equal.) Otherwise it is lost. -/
theorem edit_kept_iff (hnone : syncCfg.transforms = []) (hne : syncCfg.source ≠ targetID)
    {v x : Bytes} {w : World} (h : Settled e syncCfg targetID secretName v w) (hx : x ≠ v)
    {vault : String} (hvault : vault = syncCfg.source ∨ vault = targetID) {failing : List Env}
    (hfail : ∀ ok ∈ reports e syncCfg targetID secretName failing (w.edit vault secretName (some x)),
      ok = false) {next : Env}
    (hok : (syncOnce e syncCfg targetID secretName next (syncs e syncCfg targetID secretName failing
      (w.edit vault secretName (some x)))).1 = .ok ()) :
    let u := syncs e syncCfg targetID secretName failing (w.edit vault secretName (some x))
    let w' := (syncOnce e syncCfg targetID secretName next u).2
    (w'.vaults syncCfg.source secretName = some x ∧ w'.vaults targetID secretName = some x) ↔
      (vault = syncCfg.source ∧ (¬(next.get 1).Works ∨ (hashString x ≠ hashString v ∧
        LastTargetToSource u (syncKey syncCfg targetID secretName)))) ∨
      (vault = targetID ∧ (next.get 1).Works ∧ hashString x ≠ hashString v ∧
        ¬LastTargetToSource u (syncKey syncCfg targetID secretName)) := by
  intro u w'
  obtain ⟨r₀, hr₀, -⟩ := h.record
  obtain ⟨hvaults, hkey⟩ := syncs_of_errors hfail
    (k := syncKey syncCfg targetID secretName) (by simpa [World.edit] using by simp [hr₀])
  have hdir := direction_eq_sourceToTarget_iff hkey
  have hrun := run_syncOnce e syncCfg targetID secretName next u
  rw [hok] at hrun
  change BidirectionalRun e syncCfg targetID secretName syncCfg.source targetID next u (.ok ()) w'
    at hrun
  rcases hvault with rfl | rfl
  · have hs : u.vaults syncCfg.source secretName = some x := by rw [hvaults, World.edit_self]
    have ht : u.vaults targetID secretName = some v := by
      rw [hvaults, World.edit_of_ne _ _ (.inl hne.symm), h.target]
    simp only [true_and, hne, false_and, or_false]
    rcases hrun.of_ok hnone hne hs ht with ⟨hw, hs', ht'⟩ | ⟨hw, heq, hv⟩ | ⟨hw, hdiff, hs', ht'⟩
    · exact iff_of_true ⟨hs', ht'⟩ (.inl hw)
    · refine iff_of_false (fun hboth => hx ?_) fun hcond => hcond.elim (· hw) (·.1 heq)
      exact Option.some.inj (hboth.2.symm.trans (by rw [hv, ht]))
    · rw [← hdir, hs', ht']
      simp only [hw, not_true_eq_false, false_or, ne_eq, hdiff, not_false_eq_true, true_and,
        and_self, Option.some.injEq]
      cases u.direction (syncKey syncCfg targetID secretName) with
      | sourceToTarget => simp [Direction.pick]
      | targetToSource => simp [Direction.pick, hx.symm]
  · have hs : u.vaults syncCfg.source secretName = some v := by
      rw [hvaults, World.edit_of_ne _ _ (.inl hne), h.source]
    have ht : u.vaults vault secretName = some x := by rw [hvaults, World.edit_self]
    simp only [true_and, hne.symm, false_and, false_or]
    rcases hrun.of_ok hnone hne hs ht with ⟨hw, hs', ht'⟩ | ⟨hw, heq, hv⟩ | ⟨hw, hdiff, hs', ht'⟩
    · refine iff_of_false (fun hboth => hx ?_) fun hcond => hw hcond.1
      exact Option.some.inj (hboth.1.symm.trans hs')
    · refine iff_of_false (fun hboth => hx ?_) fun hcond => hcond.2.1 heq.symm
      exact Option.some.inj (hboth.1.symm.trans (by rw [hv, hs]))
    · rw [← hdir, hs', ht']
      simp only [ne_eq, Ne.symm hdiff, not_false_eq_true, true_and, and_self, Option.some.injEq]
      cases u.direction (syncKey syncCfg vault secretName) with
      | sourceToTarget => simp [Direction.pick, hx.symm]
      | targetToSource => simpa [Direction.pick] using hw

/-- A first sync of a source value to an empty target. -/
def firstSync : World :=
  (syncOnce pairEngine pairSync "b" "k" noFaults (pairWorld (some (utf8 "v")) none)).2

theorem firstSync_settled : Settled pairEngine pairSync "b" "k" (utf8 "v") firstSync where
  reached := ⟨pairWorld (some (utf8 "v")) none, [], noFaults, Prod.ext (by decide +kernel) rfl⟩
  source := by decide +kernel
  target := by decide +kernel
  record := by
    have hrow : (firstSync.syncObjects.lookup (syncKey pairSync "b" "k")).map
        (fun r => (r.sourceChecksum, r.targetChecksum)) =
        some (hashString (utf8 "v"), hashString (utf8 "v")) := by decide +kernel
    obtain ⟨r, hr, hsum⟩ := Option.map_eq_some_iff.mp hrow
    exact ⟨r, hr, congrArg Prod.fst hsum, congrArg Prod.snd hsum⟩

theorem edit_kept_iff_pair :
    let u := syncs pairEngine pairSync "b" "k" [allDown] (firstSync.edit "a" "k" (some (utf8 "w")))
    let w' := (syncOnce pairEngine pairSync "b" "k" noFaults u).2
    (w'.vaults pairSync.source "k" = some (utf8 "w") ∧ w'.vaults "b" "k" = some (utf8 "w")) ↔
      ("a" = pairSync.source ∧ (¬(noFaults.get 1).Works ∨
        (hashString (utf8 "w") ≠ hashString (utf8 "v") ∧
          LastTargetToSource u (syncKey pairSync "b" "k")))) ∨
      ("a" = "b" ∧ (noFaults.get 1).Works ∧ hashString (utf8 "w") ≠ hashString (utf8 "v") ∧
        ¬LastTargetToSource u (syncKey pairSync "b" "k")) := by
  have hfail : ∀ ok ∈ reports pairEngine pairSync "b" "k" [allDown]
      (firstSync.edit "a" "k" (some (utf8 "w"))), ok = false := by decide +kernel
  have hok : (syncOnce pairEngine pairSync "b" "k" noFaults (syncs pairEngine pairSync "b" "k"
      [allDown] (firstSync.edit "a" "k" (some (utf8 "w"))))).1 = .ok () := by decide +kernel
  have hx : utf8 "w" ≠ utf8 "v" := by decide +kernel
  exact @edit_kept_iff pairEngine pairSync "b" "k" rfl (by decide) (utf8 "v") (utf8 "w") firstSync
    firstSync_settled hx "a" (.inl rfl) [allDown] hfail noFaults hok

/-- The source is edited after a first sync; the next sync puts the old value back. -/
theorem edit_of_source_lost :
    let u := firstSync.edit "a" "k" (some (utf8 "w"))
    let r := syncOnce pairEngine pairSync "b" "k" noFaults u
    Settled pairEngine pairSync "b" "k" (utf8 "v") firstSync ∧ r.1 = .ok () ∧
      r.2.vaults "a" "k" = some (utf8 "v") ∧ r.2.vaults "b" "k" = some (utf8 "v") := by
  refine ⟨firstSync_settled, ?_⟩
  decide +kernel

/-! ### Runs with nothing to do -/

/-- All vaults and all records. -/
def everywhere : Footprint := ⟨fun _ _ => True, fun _ _ => True, fun _ => True⟩

/-- The vaults hold the same, and every record leads to the same direction. -/
abbrev SameCourse (w u : World) : Prop := Agree everywhere RowView.choice w u

theorem SameCourse.vaults {w u : World} (h : SameCourse w u) : w.vaults = u.vaults :=
  funext fun v => funext fun n => h.cells v n (.inl trivial)

/-- One event keeps two worlds on the same course. -/
theorem SameCourse.happen {w u : World} (h : SameCourse w u) (event : Event) :
    SameCourse (event.happen e syncCfg targetID w) (event.happen e syncCfg targetID u) := by
  cases event with
  | edit vault name value =>
    refine ⟨fun v n _ => ?_, h.rows⟩
    simp only [Event.happen, World.edit, h.cells v n (.inl trivial)]
  | sync name env =>
    have hwithin : (syncSecretBidirectional e syncCfg targetID name syncCfg.source
        targetID).AllCalls everywhere.Within :=
      within_syncSecretBidirectional trivial trivial trivial trivial trivial trivial
    have halike := alike_syncSecretBidirectional e syncCfg targetID name syncCfg.source targetID
    have hsame : SameFaults env env := fun _ => rfl
    exact (halike.run hwithin (handle_respects everywhere RowView.choice)
      (s := (env, w)) (t := (env, u)) ⟨hsame, h⟩).2.2

theorem SameCourse.play {w u : World} (h : SameCourse w u) (history : List Event) :
    SameCourse (play e syncCfg targetID history w) (play e syncCfg targetID history u) := by
  induction history generalizing w u with
  | nil => exact h
  | cons event history ih => exact ih (h.happen event)

/-- A sync that never tries to write leaves every vault as it is. -/
theorem vaults_of_no_attempts (hzero : syncCfg.attempts = 0) (env : Env) (w : World) :
    (syncOnce e syncCfg targetID secretName env w).2.vaults = w.vaults := by
  have hno : ∀ {env' k}, firstWorking syncCfg.attempts env' ≠ some k := by
    intro env' k hk
    have := (firstWorking_works hk).1
    omega
  have hrun := run_syncOnce e syncCfg targetID secretName env w
  generalize (syncOnce e syncCfg targetID secretName env w).1 = res at hrun
  generalize (syncOnce e syncCfg targetID secretName env w).2 = w' at hrun
  cases hrun with
  | unread | unselected => rfl
  | inSync _ _ hnote => exact hnote.vaults
  | handedOver _ _ _ huni =>
    cases huni with
    | rejected => rfl
    | exhausted _ _ hnote => exact hnote.vaults
    | delivered _ hset => exact absurd hset hno
  | directed _ _ _ hdir =>
    cases hdir with
    | failed _ hnote => exact hnote.vaults
    | copied hset => exact absurd hset hno

theorem play_of_no_attempts (hzero : syncCfg.attempts = 0) (history : List Event) {w u : World}
    (h : w.vaults = u.vaults) :
    (play e syncCfg targetID history w).vaults = (play e syncCfg targetID history u).vaults := by
  induction history generalizing w u with
  | nil => exact h
  | cons event history ih =>
    refine ih ?_
    cases event with
    | edit vault name value => simp only [Event.happen, World.edit, h]
    | sync name env =>
      exact (vaults_of_no_attempts hzero env w).trans
        (h.trans (vaults_of_no_attempts hzero env u).symm)

/-- A run that works and finds two different checksums copies in the direction of the record. -/
theorem syncOnce_copies (hne : syncCfg.source ≠ targetID) {env : Env} {w : World} {s t : Bytes}
    (hread : BothRead secretName syncCfg.source targetID env w s t)
    (hdiff : hashString s ≠ hashString t) (hselect : (env.get 2).Works)
    (hset : ∃ k < syncCfg.attempts, (env.get (3 + k)).Works) :
    let d := w.direction (syncKey syncCfg targetID secretName)
    (syncOnce e syncCfg targetID secretName env w).1 = .ok () ∧
      (syncOnce e syncCfg targetID secretName env w).2.vaults syncCfg.source secretName =
        some (d.pick s t) ∧
      (syncOnce e syncCfg targetID secretName env w).2.vaults targetID secretName =
        some (d.pick s t) := by
  have hrun := run_syncOnce e syncCfg targetID secretName env w
  generalize (syncOnce e syncCfg targetID secretName env w).1 = res at hrun
  generalize (syncOnce e syncCfg targetID secretName env w).2 = w' at hrun
  cases hrun with
  | unread _ hno => exact absurd ⟨hread.sourceWorks, s, hread.source⟩ hno
  | handedOver _ _ hno => exact absurd ⟨hread.targetWorks, t, hread.target⟩ hno
  | unselected _ _ _ hno => exact absurd hselect hno
  | inSync hread' heq =>
    obtain ⟨rfl, rfl⟩ := hread.eq hread'
    exact absurd heq hdiff
  | directed hread' _ _ hdir =>
    obtain ⟨rfl, rfl⟩ := hread.eq hread'
    cases hdir with
    | failed hnone =>
      obtain ⟨k, hk, hw⟩ := hset
      exact absurd (by simpa using hw) (firstWorking_eq_none.mp hnone k hk)
    | copied hset hnote => exact ⟨rfl, DirectionRun.copies hne hread (.copied hset hnote) rfl⟩

/-- No value has the checksum of all others. -/
theorem exists_other_checksum (v : Bytes) : ∃ x, hashString x ≠ hashString v := by
  have htwo : hashString [] ≠ hashString [0] := by decide +kernel
  by_cases h : hashString [] = hashString v
  · exact ⟨[0], fun h' => htwo (h.trans h'.symm)⟩
  · exact ⟨[], h⟩

/-- What a run leaves that finds the same value on both sides: the record, if it is saved, is turned
    to `none`. -/
theorem syncOnce_equal {env : Env} {w : World} {v : Bytes}
    (hs : w.vaults syncCfg.source secretName = some v)
    (ht : w.vaults targetID secretName = some v) (h0 : (env.get 0).Works)
    (h1 : (env.get 1).Works) :
    (syncOnce e syncCfg targetID secretName env w).1 = .ok () ∧
      Noted (syncKey syncCfg targetID secretName) ⟨"in_sync", hashString v, hashString v, "none"⟩
        (env.drop 3) w (syncOnce e syncCfg targetID secretName env w).2 := by
  have hread : BothRead secretName syncCfg.source targetID env w v v := ⟨h0, h1, hs, ht⟩
  have hrun := run_syncOnce e syncCfg targetID secretName env w
  generalize (syncOnce e syncCfg targetID secretName env w).1 = res at hrun
  generalize (syncOnce e syncCfg targetID secretName env w).2 = w' at hrun
  cases hrun with
  | unread _ hno => exact absurd ⟨h0, v, hs⟩ hno
  | handedOver _ _ hno => exact absurd ⟨h1, v, ht⟩ hno
  | inSync hread' _ hnote =>
    obtain ⟨rfl, rfl⟩ := hread.eq hread'
    exact ⟨rfl, hnote⟩
  | unselected _ hread' hne | directed hread' hne =>
    obtain ⟨rfl, rfl⟩ := hread.eq hread'
    exact absurd rfl hne

/-- The source is edited and synced without a fault: the recorded direction decides what it holds. -/
theorem edit_then_sync (hne : syncCfg.source ≠ targetID) (hpos : 0 < syncCfg.attempts)
    {v x : Bytes} (hx : hashString x ≠ hashString v) (w : World)
    (ht : w.vaults targetID secretName = some v) :
    (play e syncCfg targetID [.edit syncCfg.source secretName (some x), .sync secretName noFaults]
      w).vaults syncCfg.source secretName =
        some ((w.direction (syncKey syncCfg targetID secretName)).pick x v) := by
  have hread : BothRead secretName syncCfg.source targetID noFaults
      (w.edit syncCfg.source secretName (some x)) x v :=
    ⟨rfl, rfl, World.edit_self .., (World.edit_of_ne _ _ (.inl hne.symm)).trans ht⟩
  exact (syncOnce_copies (e := e) hne hread hx rfl ⟨0, hpos, rfl⟩).2.1

/-- An extra run at a point where both vaults hold `v` never shows in the vaults later, exactly if
    the sync never writes anything, or the record of the extra run is not saved, or there was a
    record already and its direction was not target to source. -/
theorem extra_run_neutral_iff (hne : syncCfg.source ≠ targetID) (before : List Event) (w₀ : World)
    {env : Env} {v : Bytes} :
    let w := play e syncCfg targetID before w₀
    w.vaults syncCfg.source secretName = some v → w.vaults targetID secretName = some v →
    (env.get 0).Works → (env.get 1).Works →
    ((∀ rest, (play e syncCfg targetID rest
        (syncOnce e syncCfg targetID secretName env w).2).vaults =
        (play e syncCfg targetID rest w).vaults) ↔
      syncCfg.attempts = 0 ∨
      ¬Recorded (env.drop 3) w (syncKey syncCfg targetID secretName) ∨
      ∃ r, w.syncObjects.lookup (syncKey syncCfg targetID secretName) = some r ∧
        r.directionLast ≠ "target_to_source") := by
  intro w hs ht h0 h1
  obtain ⟨-, hnote⟩ := syncOnce_equal (e := e) hs ht h0 h1
  generalize (syncOnce e syncCfg targetID secretName env w).2 = w' at hnote ⊢
  constructor
  · intro hneutral
    by_contra hcond
    simp only [not_or, not_not, not_exists, not_and] at hcond
    obtain ⟨hpos, hrec, hrow⟩ := hcond
    -- the next direction is source to target without the extra run, the other way with it
    have hbefore : w.direction (syncKey syncCfg targetID secretName) = .sourceToTarget := by
      cases hl : w.syncObjects.lookup (syncKey syncCfg targetID secretName) with
      | none => simp [World.direction, hl, chooseDirection]
      | some r => simp [World.direction, hl, chooseDirection, hrow r hl]
    obtain ⟨r, hr, hn⟩ := hnote.saved hrec
    have hlast : r.directionLast = "none" := congrArg Note.directionLast hn
    have hafter : w'.direction (syncKey syncCfg targetID secretName) = .targetToSource := by
      simp [World.direction, hr, chooseDirection, hlast]
    obtain ⟨x, hx⟩ := exists_other_checksum v
    have hwith := edit_then_sync (e := e) hne (Nat.pos_of_ne_zero hpos) hx w'
      (by rw [hnote.vaults]; exact ht)
    have hwithout := edit_then_sync (e := e) hne (Nat.pos_of_ne_zero hpos) hx w ht
    have hsame := hneutral [.edit syncCfg.source secretName (some x), .sync secretName noFaults]
    have hcell := congrFun (congrFun hsame syncCfg.source) secretName
    rw [hwith, hwithout, hbefore, hafter] at hcell
    exact hx (congrArg hashString (Option.some.inj hcell).symm)
  · rintro (hzero | hlost | ⟨r, hr, hdir⟩)
    · intro rest
      exact play_of_no_attempts hzero rest hnote.vaults
    · intro rest
      rw [hnote.lost hlost]
    · intro rest
      refine SameCourse.vaults (SameCourse.play ⟨fun v n _ => by rw [hnote.vaults], ?_⟩ rest)
      intro k _
      rcases eq_or_ne k (syncKey syncCfg targetID secretName) with rfl | hk
      · by_cases hrec : Recorded (env.drop 3) w (syncKey syncCfg targetID secretName)
        · obtain ⟨r', hr', hn⟩ := hnote.saved hrec
          have hlast : r'.directionLast = "none" := congrArg Note.directionLast hn
          simp [hr, hr', RowView.choice, chooseDirection, hdir, hlast]
        · rw [hnote.lost hrec]
      · rw [hnote.others hk]

theorem extra_run_neutral_iff_pair :
    let w := play pairEngine pairSync "b" [] (pairWorld (some (utf8 "v")) (some (utf8 "v")))
    (∀ rest, (play pairEngine pairSync "b" rest
        (syncOnce pairEngine pairSync "b" "k" noFaults w).2).vaults =
        (play pairEngine pairSync "b" rest w).vaults) ↔
      pairSync.attempts = 0 ∨ ¬Recorded (noFaults.drop 3) w (syncKey pairSync "b" "k") ∨
      ∃ r, w.syncObjects.lookup (syncKey pairSync "b" "k") = some r ∧
        r.directionLast ≠ "target_to_source" :=
  @extra_run_neutral_iff pairEngine pairSync "b" "k" (by decide) [] _ noFaults (utf8 "v") rfl rfl rfl
    rfl

/-- Both vaults hold the same; whether a sync runs before the source is edited decides what is left
    after the next sync. -/
theorem extra_run_decides :
    let w := pairWorld (some (utf8 "v")) (some (utf8 "v"))
    let r := syncOnce pairEngine pairSync "b" "k" noFaults w
    let rest := [.edit "a" "k" (some (utf8 "w")), .sync "k" noFaults]
    r.1 = .ok () ∧ r.2.vaults "a" "k" = w.vaults "a" "k" ∧ r.2.vaults "b" "k" = w.vaults "b" "k" ∧
      (play pairEngine pairSync "b" rest w).vaults "b" "k" = some (utf8 "w") ∧
      (play pairEngine pairSync "b" rest r.2).vaults "b" "k" = some (utf8 "v") := by
  decide +kernel

end VaultsSyncer
