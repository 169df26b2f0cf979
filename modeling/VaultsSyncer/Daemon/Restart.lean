import VaultsSyncer.Daemon.Scheduling

/-! Whether the daemon comes up again on what its API has stored. The handlers take any schedule, cron
    parses it only when a runner starts, and one schedule that does not parse keeps the whole runner
    from starting: at the next start of the daemon, and at every reload. -/

namespace VaultsSyncer

open GoStd Schemes

/-- A runner that is made for the configuration starts, and its cron has an entry for each enabled sync
    with a schedule that the parser accepts. -/
def Restarts (lib : CronLibrary) (cfg : Config) : Prop :=
  (Runner.new.start lib cfg).1 = .ok () ∧
    ∀ sc ∈ cfg.syncs, sc.Scheduled → (lib.parse sc.schedule).isOk = true →
      ∃ e ∈ (Runner.new.start lib cfg).2.cron.entries, e.sync = sc

/-- The sync keeps no runner from starting. -/
def SyncConfig.Startable (lib : CronLibrary) (sc : SyncConfig) : Prop :=
  sc.isEnabled = true → sc.schedule = "" ∨ (lib.parse sc.schedule).isOk = true

/-- The sync that is sent is one that keeps no runner from starting. -/
def ConfigRequest.SendsStartable (lib : CronLibrary) : ConfigRequest → Prop
  | .createSync (some sc) | .updateSync _ (some sc) => sc.Startable lib
  | _ => True

variable {lib : CronLibrary} {s : ConfigStore} {db : Database}

theorem restarts_iff_parses {cfg : Config} : Restarts lib cfg ↔ Runner.Parses lib cfg.syncs := by
  have hnew : Runner.new.running = false := rfl
  constructor
  · rintro ⟨hok, -⟩
    by_contra hparses
    have hfail : (Runner.new.start lib cfg).1.isOk = false :=
      (Runner.start_of_not_parses hnew hparses).1
    rw [hok] at hfail
    cases hfail
  · intro hparses
    obtain ⟨hok, -, hentries, -⟩ := Runner.start_of_parses hnew hparses
    obtain ⟨added, hadded, hsyncs, -⟩ := Runner.schedule_adds (r := .new) hparses
    refine ⟨hok, fun sc hsc hsched _ => ?_⟩
    have hmem : sc ∈ added.map CronEntry.sync := by
      rw [hsyncs]
      exact List.mem_filter.mpr ⟨hsc, by simpa using hsched⟩
    obtain ⟨e, he, hsync⟩ := List.mem_map.mp hmem
    refine ⟨e, ?_, hsync⟩
    rw [hentries, hadded]
    exact List.mem_append_right _ he

theorem startable_iff {sc : SyncConfig} : sc.Startable lib ↔
    (sc.Scheduled → (lib.parse sc.schedule).isOk = true) := by
  simp only [SyncConfig.Startable, SyncConfig.Scheduled, and_imp, ← or_iff_not_imp_left]

/-- A stored configuration restarts, exactly if each stored sync allows it. -/
theorem restarts_loaded_iff (hs : s.Sound db) : (∀ cfg, s.Loads db cfg → Restarts lib cfg) ↔
    ∀ k sc, (s.graph db).links k = some sc → sc.Startable lib := by
  constructor
  · intro h k sc hlink
    obtain ⟨cfg, hloads⟩ := hs.loads
    obtain rfl := hs.link_id hlink
    have hmem := (ConfigStore.mem_syncs hs hloads).mpr hlink
    exact startable_iff.mpr (restarts_iff_parses.mp (h cfg hloads) sc hmem)
  · intro h cfg hloads
    refine restarts_iff_parses.mpr fun sc hsc => ?_
    exact startable_iff.mp (h sc.id sc ((ConfigStore.mem_syncs hs hloads).mp hsc))

theorem sendsStartable_iff (r : ConfigRequest) : r.SendsStartable lib ↔
    ∀ k sc, r.change = some (.putLink k sc) → sc.Startable lib := by
  have hreread : ∀ sc sc' : SyncConfig, sc'.enabled = sc.enabled → sc'.schedule = sc.schedule →
      (sc.Startable lib ↔ sc'.reread.Startable lib) := by
    intro sc sc' henabled hschedule
    simp [SyncConfig.Startable, SyncConfig.isEnabled, henabled, hschedule]
  cases r with
  | createSync body =>
    rcases body with _ | sc
    · simp [ConfigRequest.SendsStartable, ConfigRequest.change]
    refine (hreread sc sc rfl rfl).trans ⟨?_, fun h => h _ _ rfl⟩
    rintro h k _ ⟨⟩
    exact h
  | updateSync id body =>
    rcases body with _ | sc
    · simp [ConfigRequest.SendsStartable, ConfigRequest.change]
    refine (hreread sc { sc with id := id } rfl rfl).trans ⟨?_, fun h => h _ _ rfl⟩
    rintro h k _ ⟨⟩
    exact h
  | createVault body | updateVault id body =>
    rcases body with _ | v <;> simp [ConfigRequest.SendsStartable, ConfigRequest.change]
  | deleteVaultConfig id | deleteSyncConfig id =>
    simp [ConfigRequest.SendsStartable, ConfigRequest.change]

/-- The daemon restarts and reloads on what its API has accepted, exactly if every sync that was
    accepted is disabled, has no schedule, or has one that the parser accepts. -/
theorem always_restarts_iff (s : ConfigStore) (lib : CronLibrary)
    (rs : List (ConfigRequest × Surroundings)) (h : Runs.Each (configured s) (Accepted s) .empty rs) :
    Runs.Always (configured s) (fun db => ∀ cfg, s.Loads db cfg → Restarts lib cfg) .empty rs ↔
      ∀ x ∈ rs, x.1.SendsStartable lib := by
  have hsound := s.sound_empty
  calc Runs.Always (configured s) (fun db => ∀ cfg, s.Loads db cfg → Restarts lib cfg) .empty rs
      ↔ Runs.Always (configured s) (fun db => ∀ k sc, (s.graph db).links k = some sc →
          sc.Startable lib) .empty rs :=
        Runs.Always.congr (fun _ => restarts_loaded_iff) (always_sound hsound h)
    _ ↔ ∀ x ∈ rs, ∀ k sc, x.1.change = some (.putLink k sc) → sc.Startable lib :=
        References.always_links_iff (fun _ _ => graph_step) hsound (by rintro k sc ⟨⟩) h
    _ ↔ ∀ x ∈ rs, x.1.SendsStartable lib :=
        forall₂_congr fun x _ => (sendsStartable_iff x.1).symm

/-- A sync with the given schedule is created. -/
def createScheduled (schedule : String) : List (ConfigRequest × Surroundings) :=
  [(.createSync (some { id := "s", source := "a", targets := ["b"], schedule := schedule }), {})]

theorem always_restarts_five_fields : Runs.Always (configured {}) (fun db => ∀ cfg,
    ConfigStore.Loads {} db cfg → Restarts fiveFieldCron cfg) .empty
      (createScheduled "*/5 * * * *") := by
  refine (always_restarts_iff {} fiveFieldCron (createScheduled "*/5 * * * *")
    ⟨by decide +kernel, trivial⟩).mpr fun x hx => ?_
  obtain rfl := List.mem_singleton.mp hx
  exact fun _ => .inr (by decide +kernel)

/-- Six fields, as the schedule field of the web interface suggests: the request is accepted, and the
    runner does not start any more. -/
theorem six_fields_stop_restart :
    Runs.Each (configured {}) (Accepted {}) .empty (createScheduled "0 */5 * * * *") ∧
      ¬Runs.Always (configured {}) (fun db => ∀ cfg, ConfigStore.Loads {} db cfg →
        Restarts fiveFieldCron cfg) .empty (createScheduled "0 */5 * * * *") := by
  have haccepted : Runs.Each (configured {}) (Accepted {}) .empty
      (createScheduled "0 */5 * * * *") := ⟨by decide +kernel, trivial⟩
  refine ⟨haccepted, fun h => ?_⟩
  have hsound := ConfigStore.sound_empty {}
  have hlinks := (restarts_loaded_iff (always_sound hsound haccepted).foldl).mp h.foldl
  rw [graph_configured hsound haccepted] at hlinks
  have hstartable := hlinks "s" _ rfl
  have hparse := (hstartable (by decide +kernel)).resolve_left (by decide +kernel)
  revert hparse
  decide +kernel

end VaultsSyncer
