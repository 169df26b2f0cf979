import VaultsSyncer.Daemon.Runner

/-! What `Runner.Start` and `Runner.Stop` do to the cron object (`sync/runner.go`). A runner is made
    with an empty cron, and nothing ever takes an entry out again, so a `Start` adds to what earlier
    ones have left: those that were stopped, and those that failed half way. -/

namespace VaultsSyncer

open GoStd Schemes

/-! ### Cron -/

/-- The cron library: what its parser accepts, and which ids it hands out. -/
structure CronLibrary where
  parse : String → Except GoError Unit
  fresh : List ℕ → ℕ
  fresh_notMem : ∀ ids, fresh ids ∉ ids

/-- An entry, with the sync that its job executes. -/
structure CronEntry where
  id : ℕ
  sync : SyncConfig

structure Cron where
  entries : List CronEntry
  ids_nodup : (entries.map CronEntry.id).Nodup
  running : Bool

namespace Cron

variable (lib : CronLibrary) (c : Cron)

/-- `cron.New()`. -/
def new : Cron where
  entries := []
  ids_nodup := List.nodup_nil
  running := false

/-- The entry that is added next. -/
def nextEntry (syncCfg : SyncConfig) : CronEntry where
  id := lib.fresh (c.entries.map CronEntry.id)
  sync := syncCfg

theorem ids_nodup_add (syncCfg : SyncConfig) :
    ((c.entries ++ [c.nextEntry lib syncCfg]).map CronEntry.id).Nodup := by
  rw [List.map_append, List.nodup_append]
  refine ⟨c.ids_nodup, List.nodup_singleton _, ?_⟩
  rintro id hid id' hid' rfl
  rw [List.map_singleton, List.mem_singleton] at hid'
  exact lib.fresh_notMem _ (hid' ▸ hid)

def add (syncCfg : SyncConfig) : Cron where
  entries := c.entries ++ [c.nextEntry lib syncCfg]
  ids_nodup := c.ids_nodup_add lib syncCfg
  running := c.running

/-- Adds one entry under a fresh id, or fails on a schedule that does not parse. -/
def addFunc (syncCfg : SyncConfig) : Except GoError (ℕ × Cron) :=
  match lib.parse syncCfg.schedule with
  | .error err => .error err
  | .ok _ => .ok ((c.nextEntry lib syncCfg).id, c.add lib syncCfg)

end Cron

/-! ### The runner -/

/-- The runner, without its engine. -/
structure Runner where
  cron : Cron
  syncMap : String → Option ℕ
  running : Bool

namespace Runner

/-- `NewRunner`. -/
def new : Runner where
  cron := .new
  syncMap := fun _ => none
  running := false

variable (lib : CronLibrary)

/-- The loop of `Start`. -/
def schedule (r : Runner) : List SyncConfig → Except GoError Unit × Runner
  | [] => (.ok (), r)
  | syncCfg :: rest =>
    if ¬syncCfg.isEnabled then schedule r rest
    else if syncCfg.schedule = "" then schedule r rest
    else
      match r.cron.addFunc lib syncCfg with
      | .error err => (.error (.wrap ("failed to schedule sync " ++ syncCfg.id ++ ": ") err), r)
      | .ok (entryID, cron) =>
        schedule { r with cron := cron
                          syncMap := Function.update r.syncMap syncCfg.id (some entryID) } rest

/-- Starts the runner and schedules all enabled syncs. -/
def start (r : Runner) (cfg : Config) : Except GoError Unit × Runner :=
  if r.running then (.error (.new "runner already started"), r)
  else
    match r.schedule lib cfg.syncs with
    | (.error err, r') => (.error err, r')
    | (.ok _, r') => (.ok (), { r' with cron := { r'.cron with running := true }, running := true })

/-- Stops the runner; the entries stay. -/
def stop (r : Runner) : Runner :=
  if r.running then { r with cron := { r.cron with running := false }, running := false } else r

end Runner

/-- The configuration asks cron for the sync. -/
def SyncConfig.Scheduled (sc : SyncConfig) : Prop := sc.isEnabled = true ∧ sc.schedule ≠ ""

instance (sc : SyncConfig) : Decidable sc.Scheduled := by unfold SyncConfig.Scheduled; infer_instance

namespace Runner

variable {lib : CronLibrary} {r : Runner}

/-- The runner with one more entry, which `syncMap` leads to. -/
def add (lib : CronLibrary) (r : Runner) (sc : SyncConfig) : Runner :=
  { r with cron := r.cron.add lib sc
           syncMap := Function.update r.syncMap sc.id (some (r.cron.nextEntry lib sc).id) }

theorem schedule_of_not_scheduled {sc : SyncConfig} (h : ¬sc.Scheduled) (rest : List SyncConfig) :
    r.schedule lib (sc :: rest) = r.schedule lib rest := by
  by_cases henabled : sc.isEnabled = true
  · have hschedule : sc.schedule = "" := by
      by_contra hne
      exact h ⟨henabled, hne⟩
    simp [schedule, henabled, hschedule]
  · simp [schedule, henabled]

theorem schedule_of_parse_error {sc : SyncConfig} {err : GoError} (h : sc.Scheduled)
    (hparse : lib.parse sc.schedule = .error err) (rest : List SyncConfig) :
    r.schedule lib (sc :: rest) =
      (.error (.wrap ("failed to schedule sync " ++ sc.id ++ ": ") err), r) := by
  simp [schedule, h.1, h.2, Cron.addFunc, hparse]

theorem schedule_of_parse_ok {sc : SyncConfig} {u : Unit} (h : sc.Scheduled)
    (hparse : lib.parse sc.schedule = .ok u) (rest : List SyncConfig) :
    r.schedule lib (sc :: rest) = (r.add lib sc).schedule lib rest := by
  simp [schedule, h.1, h.2, Cron.addFunc, hparse, add]

/-- The parser accepts every schedule that the configuration hands to cron. -/
def Parses (lib : CronLibrary) (syncs : List SyncConfig) : Prop :=
  ∀ sc ∈ syncs, sc.Scheduled → (lib.parse sc.schedule).isOk = true

theorem schedule_isOk_iff : ∀ {syncs : List SyncConfig} {r : Runner},
    (r.schedule lib syncs).1.isOk = true ↔ Parses lib syncs
  | [], r => by simp [schedule, Parses]; rfl
  | sc :: rest, r => by
      have hcons : Parses lib (sc :: rest) ↔
          (sc.Scheduled → (lib.parse sc.schedule).isOk = true) ∧ Parses lib rest := by
        simp [Parses]
      rw [hcons]
      by_cases hsched : sc.Scheduled
      · rcases hparse : lib.parse sc.schedule with err | u
        · rw [schedule_of_parse_error hsched hparse]
          refine iff_of_false Bool.false_ne_true fun h => ?_
          exact absurd (h.1 hsched) Bool.false_ne_true
        · rw [schedule_of_parse_ok hsched hparse, schedule_isOk_iff]
          exact (and_iff_right fun _ => rfl).symm
      · rw [schedule_of_not_scheduled hsched, schedule_isOk_iff]
        exact (and_iff_right fun h => absurd h hsched).symm

/-- The loop neither starts nor stops the runner. -/
theorem schedule_running : ∀ {syncs : List SyncConfig} {r : Runner},
    (r.schedule lib syncs).2.running = r.running
  | [], _ => rfl
  | sc :: rest, r => by
      by_cases hsched : sc.Scheduled
      · rcases hparse : lib.parse sc.schedule with err | u
        · rw [schedule_of_parse_error hsched hparse]
        · rw [schedule_of_parse_ok hsched hparse, schedule_running]
          rfl
      · rw [schedule_of_not_scheduled hsched, schedule_running]

/-- `syncMap` leads to entries of the cron, each for its sync. -/
def Points (r : Runner) : Prop :=
  ∀ id entryID, r.syncMap id = some entryID → ∃ e ∈ r.cron.entries, e.id = entryID ∧ e.sync.id = id

theorem points_add (h : r.Points) (sc : SyncConfig) : (r.add lib sc).Points := by
  intro id entryID hmap
  by_cases hid : id = sc.id
  · subst hid
    have hnew : (r.cron.nextEntry lib sc).id = entryID := by simpa [add] using hmap
    exact ⟨r.cron.nextEntry lib sc, List.mem_append_right _ (List.mem_singleton_self _), hnew, rfl⟩
  · obtain ⟨e, he, hentry⟩ := h id entryID (by simpa [add, hid] using hmap)
    exact ⟨e, List.mem_append_left _ he, hentry⟩

theorem points_schedule : ∀ (syncs : List SyncConfig) {r : Runner}, r.Points →
    (r.schedule lib syncs).2.Points
  | [], _, h => h
  | sc :: rest, r, h => by
      by_cases hsched : sc.Scheduled
      · rcases hparse : lib.parse sc.schedule with err | u
        · rwa [schedule_of_parse_error hsched hparse]
        · rw [schedule_of_parse_ok hsched hparse]
          exact points_schedule rest (points_add h sc)
      · rw [schedule_of_not_scheduled hsched]
        exact points_schedule rest h

/-- Where every schedule parses, the loop adds one entry for each sync that asks for one. If no two
    syncs have one id, `syncMap` leads to these, and for the other ids to where it led before. -/
theorem schedule_adds : ∀ {syncs : List SyncConfig} {r : Runner}, Parses lib syncs →
    ∃ added, (r.schedule lib syncs).2.cron.entries = r.cron.entries ++ added ∧
      added.map CronEntry.sync = syncs.filter (SyncConfig.Scheduled ·) ∧
      ((syncs.map SyncConfig.id).Nodup →
        ∀ e ∈ added, (r.schedule lib syncs).2.syncMap e.sync.id = some e.id) ∧
      ∀ id, (∀ sc ∈ syncs, sc.id ≠ id) → (r.schedule lib syncs).2.syncMap id = r.syncMap id
  | [], r, _ => ⟨[], by simp [schedule], rfl, by simp, fun _ _ => rfl⟩
  | sc :: rest, r, hparses => by
      have hrest : Parses lib rest := fun sc' h' => hparses sc' (List.mem_cons_of_mem _ h')
      by_cases hsched : sc.Scheduled
      · have hok := hparses sc List.mem_cons_self hsched
        rcases hparse : lib.parse sc.schedule with err | u
        · rw [hparse] at hok
          cases hok
        rw [schedule_of_parse_ok hsched hparse]
        obtain ⟨added, hentries, hsyncs, hmap, hother⟩ := schedule_adds (r := r.add lib sc) hrest
        refine ⟨r.cron.nextEntry lib sc :: added, ?_, ?_, ?_, ?_⟩
        · rw [hentries]
          simp [add, Cron.add]
        · rw [List.map_cons, hsyncs, List.filter_cons_of_pos (by simpa using hsched)]
          rfl
        · intro hnodup e he
          obtain ⟨hnot, hnodup⟩ := List.nodup_cons.mp hnodup
          rcases List.mem_cons.mp he with rfl | he
          · -- no later sync has this id
            have hlater := hother sc.id fun sc' h' heq =>
              hnot (List.mem_map.mpr ⟨sc', h', heq⟩)
            exact hlater.trans (by simp [add])
          · exact hmap hnodup e he
        · intro id hid
          have hsc : id ≠ sc.id := fun h => hid sc List.mem_cons_self h.symm
          rw [hother id fun sc' h' => hid sc' (List.mem_cons_of_mem _ h')]
          simp [add, hsc]
      · rw [schedule_of_not_scheduled hsched]
        obtain ⟨added, hentries, hsyncs, hmap, hother⟩ := schedule_adds (r := r) hrest
        refine ⟨added, hentries, ?_, fun hnodup => hmap (List.nodup_cons.mp hnodup).2,
          fun id hid => hother id fun sc' h' => hid sc' (List.mem_cons_of_mem _ h')⟩
        rw [hsyncs, List.filter_cons_of_neg (by simpa using hsched)]

/-! ### One `Start`, one `Stop` -/

theorem start_of_running (h : r.running = true) (cfg : Config) :
    r.start lib cfg = (.error (.new "runner already started"), r) := by simp [start, h]

/-- A `Start` that goes through leaves what the loop has scheduled, with cron and runner running. -/
theorem start_of_parses (h : r.running = false) {cfg : Config} (hparses : Parses lib cfg.syncs) :
    (r.start lib cfg).1 = .ok () ∧ (r.start lib cfg).2.running = true ∧
      (r.start lib cfg).2.cron.entries = (r.schedule lib cfg.syncs).2.cron.entries ∧
      (r.start lib cfg).2.syncMap = (r.schedule lib cfg.syncs).2.syncMap := by
  have hok := schedule_isOk_iff (r := r) |>.mpr hparses
  simp only [start, h]
  rcases hrun : r.schedule lib cfg.syncs with ⟨err | u, r'⟩
  · rw [hrun] at hok
    cases hok
  · exact ⟨rfl, rfl, rfl, rfl⟩

/-- A `Start` that fails on a schedule leaves what the loop has scheduled until then. -/
theorem start_of_not_parses (h : r.running = false) {cfg : Config}
    (hparses : ¬Parses lib cfg.syncs) : (r.start lib cfg).1.isOk = false ∧
      (r.start lib cfg).2 = (r.schedule lib cfg.syncs).2 := by
  have hok := (not_congr (schedule_isOk_iff (r := r))).mpr hparses
  simp only [start, h]
  rcases hrun : r.schedule lib cfg.syncs with ⟨err | u, r'⟩
  · exact ⟨rfl, rfl⟩
  · rw [hrun] at hok
    exact absurd rfl hok

/-- The cron holds one entry for each sync that the configuration asks it for and no others, and
    `syncMap` leads from the ids of these syncs to their entries. -/
structure Schedules (r : Runner) (cfg : Config) : Prop where
  entries : (r.cron.entries.map CronEntry.sync).Perm (scheduled cfg)
  syncMap : ∀ id entryID, r.syncMap id = some entryID ↔
    ∃ e ∈ r.cron.entries, e.id = entryID ∧ e.sync.id = id

theorem start_schedules_iff (hpoints : r.Points) (h : r.running = false) {cfg : Config}
    (hparses : Parses lib cfg.syncs) (hnodup : (cfg.syncs.map SyncConfig.id).Nodup) :
    (r.start lib cfg).2.Schedules cfg ↔ r.cron.entries = [] := by
  obtain ⟨-, -, hentries, hsyncMap⟩ := start_of_parses h hparses
  obtain ⟨added, hadded, hsyncs, hmap, -⟩ := schedule_adds (r := r) hparses
  have hmap := hmap hnodup
  have hscheduled : added.map CronEntry.sync = scheduled cfg := hsyncs
  rw [hadded] at hentries
  constructor
  · intro hsched
    have hlen := hsched.entries.length_eq
    rw [hentries, ← hscheduled] at hlen
    simpa using hlen
  · intro hempty
    rw [hempty, List.nil_append] at hentries
    refine ⟨by rw [hentries, hscheduled], fun id entryID => ?_⟩
    rw [hsyncMap, hentries]
    constructor
    · intro hid
      -- an id that the loop did not touch leads nowhere, since the cron was empty
      by_cases hin : ∃ e ∈ added, e.sync.id = id
      · obtain ⟨e, he, rfl⟩ := hin
        rw [hmap e he, Option.some.injEq] at hid
        exact ⟨e, he, hid, rfl⟩
      · have hlead := points_schedule cfg.syncs hpoints id entryID hid
        rw [hadded, hempty, List.nil_append] at hlead
        obtain ⟨e, he, -, hid'⟩ := hlead
        exact absurd ⟨e, he, hid'⟩ hin
    · rintro ⟨e, he, rfl, rfl⟩
      exact hmap e he

end Runner

/-! ### Any sequence of calls -/

inductive RunnerCall where
  | start (cfg : Config)
  | stop

/-- A runner and the configuration it was last successfully started with. -/
structure RunnerLife where
  runner : Runner
  started : Option Config

namespace RunnerLife

/-- A fresh runner. -/
def new : RunnerLife := ⟨.new, none⟩

variable (lib : CronLibrary)

def step (l : RunnerLife) : RunnerCall → RunnerLife
  | .start cfg => ⟨(l.runner.start lib cfg).2,
      if (l.runner.start lib cfg).1.isOk then some cfg else l.started⟩
  | .stop => ⟨l.runner.stop, l.started⟩

/-- While it is running, the runner schedules what it was started with. -/
def Exact (l : RunnerLife) : Prop :=
  l.runner.running = true → ∃ cfg, l.started = some cfg ∧ l.runner.Schedules cfg

/-- A `Start` that goes through finds the cron without entries. -/
def FindsEmpty (l : RunnerLife) : RunnerCall → Prop
  | .start cfg => l.runner.running = false → Runner.Parses lib cfg.syncs →
      l.runner.cron.entries = []
  | .stop => True

end RunnerLife

/-- No two syncs of the configuration have one id. -/
def RunnerCall.Distinct : RunnerCall → Prop
  | .start cfg => (cfg.syncs.map SyncConfig.id).Nodup
  | .stop => True

namespace RunnerLife

variable {lib : CronLibrary} {l : RunnerLife}

theorem points_step (h : l.runner.Points) (c : RunnerCall) : (l.step lib c).runner.Points := by
  cases c with
  | stop =>
    simp only [step, Runner.stop]
    split
    · exact h
    · exact h
  | start cfg =>
    by_cases hrun : l.runner.running = true
    · simp only [step, Runner.start_of_running hrun]
      exact h
    · rw [Bool.not_eq_true] at hrun
      have hpoints : (l.runner.schedule lib cfg.syncs).2.Points := Runner.points_schedule cfg.syncs h
      by_cases hparses : Runner.Parses lib cfg.syncs
      · obtain ⟨-, -, hentries, hmap⟩ := Runner.start_of_parses hrun hparses
        simp only [step, Runner.Points, hentries, hmap]
        exact hpoints
      · simp only [step, (Runner.start_of_not_parses hrun hparses).2]
        exact hpoints

theorem exact_step_iff (hpoints : l.runner.Points) {c : RunnerCall} (hc : c.Distinct)
    (h : l.Exact) : (l.step lib c).Exact ↔ l.FindsEmpty lib c := by
  cases c with
  | stop =>
    refine iff_of_true (fun hrun => ?_) trivial
    simp only [step, Runner.stop] at hrun ⊢
    split at hrun
    · cases hrun
    · contradiction
  | start cfg =>
    by_cases hrun : l.runner.running = true
    · simp only [step, Runner.start_of_running hrun, FindsEmpty]
      exact iff_of_true h fun hstopped => by rw [hrun] at hstopped; cases hstopped
    · rw [Bool.not_eq_true] at hrun
      by_cases hparses : Runner.Parses lib cfg.syncs
      · obtain ⟨hok, hstarted, -⟩ := Runner.start_of_parses hrun hparses
        have hiff := Runner.start_schedules_iff hpoints hrun hparses hc
        simp only [Exact, step, FindsEmpty, hok, hstarted, hrun, hparses, Except.isOk, Except.toBool,
          if_true, Option.some.injEq, exists_eq_left', forall_const]
        exact hiff
      · have hfail := Runner.start_of_not_parses hrun hparses
        refine iff_of_true (fun hstarted => ?_) fun _ h => absurd h hparses
        simp only [step, hfail.2, Runner.schedule_running, hrun] at hstarted
        cases hstarted

/-- Over any sequence of calls the runner schedules what it was last started with, exactly if no
    `Start` that goes through finds entries that an earlier one has left. -/
theorem always_exact_iff (lib : CronLibrary) (cs : List RunnerCall) (hcs : ∀ c ∈ cs, c.Distinct) :
    Runs.Always (step lib) Exact new cs ↔ Runs.Each (step lib) (FindsEmpty lib) new cs := by
  have hstep : ∀ (l : RunnerLife) (c : RunnerCall), l.runner.Points → c.Distinct → l.Exact →
      (l.step lib c).runner.Points ∧ ((l.step lib c).Exact ↔ l.FindsEmpty lib c) :=
    fun l c hpoints hc h => ⟨points_step hpoints c, exact_step_iff hpoints hc h⟩
  refine Runs.always_iff_each hstep (fun id entryID h => ?_) (fun h => ?_)
    (Runs.each_iff_forall.mpr hcs)
  · cases h
  · cases h

end RunnerLife

theorem le_foldl_max : ∀ (ids : List ℕ) (a : ℕ), a ≤ ids.foldl max a ∧
    ∀ id ∈ ids, id ≤ ids.foldl max a
  | [], a => ⟨le_refl a, by simp⟩
  | id :: ids, a => by
      obtain ⟨hle, hmem⟩ := le_foldl_max ids (max a id)
      refine ⟨le_trans (le_max_left a id) hle, fun id' hid' => ?_⟩
      rcases List.mem_cons.mp hid' with rfl | hid'
      · exact le_trans (le_max_right a id') hle
      · exact hmem id' hid'

theorem succ_max_notMem (ids : List ℕ) : ids.foldl max 0 + 1 ∉ ids := fun h =>
  Nat.not_succ_le_self _ ((le_foldl_max ids 0).2 _ h)

/-- A cron that counts its ids and turns down what does not have five fields. -/
def fiveFieldCron : CronLibrary where
  parse := fun spec =>
    let count := (spec.toList.filter (· = ' ')).length + 1
    if count = 5 then .ok ()
    else .error (.new ("expected exactly 5 fields, found " ++ toString count ++ ": [" ++ spec ++ "]"))
  fresh := fun ids => ids.foldl max 0 + 1
  fresh_notMem := succ_max_notMem

/-- A sync that runs every five minutes. -/
def fiveMinuteSync : SyncConfig :=
  { id := "s", source := "a", targets := ["b"], schedule := "*/5 * * * *" }

def fiveMinutes : Config where
  vaults := []
  syncs := [fiveMinuteSync]

theorem distinct_fiveMinutes : (RunnerCall.start fiveMinutes).Distinct := List.nodup_singleton "s"

theorem always_exact_once : Runs.Always (RunnerLife.step fiveFieldCron) RunnerLife.Exact .new
    [.start fiveMinutes, .stop] := by
  refine (RunnerLife.always_exact_iff fiveFieldCron [.start fiveMinutes, .stop] ?_).mpr ?_
  · intro c hc
    rcases List.mem_cons.mp hc with rfl | hc
    · exact distinct_fiveMinutes
    · rw [List.mem_singleton] at hc
      subst hc
      trivial
  · exact ⟨fun _ _ => rfl, trivial, trivial⟩

/-- Started, stopped and started again, the runner has the sync in its cron twice. -/
theorem restarted_runner_schedules_twice :
    (∀ c ∈ [RunnerCall.start fiveMinutes, .stop, .start fiveMinutes], c.Distinct) ∧
      ¬Runs.Always (RunnerLife.step fiveFieldCron) RunnerLife.Exact .new
        [.start fiveMinutes, .stop, .start fiveMinutes] := by
  constructor
  · intro c hc
    simp only [List.mem_cons, List.not_mem_nil, or_false] at hc
    rcases hc with rfl | rfl | rfl
    · exact distinct_fiveMinutes
    · trivial
    · exact distinct_fiveMinutes
  · rintro ⟨-, -, -, h⟩
    obtain ⟨cfg, hcfg, hsched⟩ := h (by decide +kernel)
    have hone : (scheduled cfg).length = 1 := by
      have hstarted : some cfg = some fiveMinutes := hcfg.symm.trans (by rfl)
      rw [Option.some.inj hstarted]
      decide +kernel
    have htwo := hsched.entries.length_eq
    rw [hone, List.length_map] at htwo
    revert htwo
    decide +kernel

end VaultsSyncer
