import VaultsSyncer.Api.StoredVaults
import VaultsSyncer.Config.Loader

/-! A vault of type tool on the two ways into a configuration. The YAML loader reads the tool file and
    hands what it says to the backend (`loadConfig_runs_tool`). The config store keeps the vault without
    it, and nothing that loads the store reads the file, so no backend runs the tool
    (`stored_tool_lost`). -/

namespace VaultsSyncer

open GoStd Schemes Schemes.Prog

/-- The engine of a configuration runs the operations of a tool file for a vault. -/
def Config.RunsTool (cfg : Config) (id : String) (toolCfg : ExternalToolConfig) : Prop :=
  ∃ c, (registered [] cfg.vaults).get id = some (.tool c toolCfg)

/-! ### The YAML loader -/

/-- Validation takes each id once. -/
theorem nodup_of_validateVaults {vaults : List VaultConfig} {seen ids : List String}
    (h : validateVaults seen vaults = .ok ids) :
    (vaults.map VaultConfig.id).Nodup ∧ ∀ v ∈ vaults, v.id ∉ seen := by
  induction vaults generalizing seen with
  | nil => exact ⟨List.nodup_nil, by simp⟩
  | cons v vaults ih =>
    obtain ⟨hseen, -, hrest⟩ := validateVaults_cons h
    obtain ⟨hnodup, hfresh⟩ := ih hrest
    constructor
    · rw [List.map_cons, List.nodup_cons]
      refine ⟨fun hmem => ?_, hnodup⟩
      obtain ⟨v', hv', hid⟩ := List.mem_map.mp hmem
      exact hfresh v' hv' (hid ▸ List.mem_cons_self)
    · rw [List.forall_mem_cons]
      exact ⟨hseen, fun v' hv' hmem => hfresh v' hv' (List.mem_cons_of_mem _ hmem)⟩

theorem toolConfig_ne_empty {v : VaultConfig} (h : validateToolVault v = .ok ()) : v.toolConfig ≠ "" := by
  rw [validateToolVault] at h
  split_ifs at h with hempty
  exact hempty

theorem nodup_of_validate {cfg : Config} (h : cfg.validate = .ok ()) :
    (cfg.vaults.map VaultConfig.id).Nodup := by
  obtain ⟨ids, hids, -⟩ := validate_eq_ok h
  exact (nodup_of_validateVaults hids).1

/-- What the YAML loader returns has its tool files resolved, and each id once. -/
theorem loadConfig_spec {parsed cfg : Config} {files : String → Except GoError ExternalToolConfig}
    (h : loadConfig (.ok parsed) files = .ok cfg) :
    (∀ v, v ∈ cfg.vaults ↔ ∃ v' ∈ parsed.vaults, resolveToolConfig files (applyVaultDefaults v') = .ok v) ∧
      (cfg.vaults.map VaultConfig.id).Nodup := by
  simp only [loadConfig] at h
  rcases hvaults : (applyConfigDefaults parsed).vaults.mapM (resolveToolConfig files) with err | vaults
  · change (do let vaults ← (applyConfigDefaults parsed).vaults.mapM (resolveToolConfig files); _) = _ at h
    rw [hvaults] at h
    cases h
  change (do let vaults ← (applyConfigDefaults parsed).vaults.mapM (resolveToolConfig files); _) = _ at h
  rw [hvaults] at h
  set loaded : Config := { applyConfigDefaults parsed with vaults := vaults } with hloaded
  change (do loaded.validate; return loaded) = .ok cfg at h
  rcases hvalid : loaded.validate with err | ⟨⟩
  · rw [hvalid] at h
    cases h
  rw [hvalid] at h
  obtain rfl : loaded = cfg := Except.ok.inj h
  refine ⟨fun v => ?_, nodup_of_validate hvalid⟩
  rw [hloaded, mem_of_mapM_ok hvaults]
  simp [applyConfigDefaults]

/-- The YAML way: the tool is run. -/
theorem loadConfig_runs_tool {parsed cfg : Config} {files : String → Except GoError ExternalToolConfig}
    (h : loadConfig (.ok parsed) files = .ok cfg) {v : VaultConfig} (hv : v ∈ parsed.vaults)
    (htype : v.type = "tool") (hpath : v.toolConfig ≠ "") {toolCfg : ExternalToolConfig}
    (hfile : loadExternalToolConfig (files v.toolConfig) = .ok toolCfg) : cfg.RunsTool v.id toolCfg := by
  obtain ⟨hmem, hnodup⟩ := loadConfig_spec h
  set resolved : VaultConfig := { applyVaultDefaults v with resolvedTool := some toolCfg } with hresolved
  have hresolve : resolveToolConfig files (applyVaultDefaults v) = .ok resolved := by
    have hlower : toLower (applyVaultDefaults v).type = "tool" := by
      change toLower v.type = "tool"
      rw [htype]
      decide +kernel
    have hskip : ¬(toLower (applyVaultDefaults v).type ≠ "tool" ∨ (applyVaultDefaults v).toolConfig = "") :=
      fun hskip => hskip.elim (· hlower) hpath
    have hread : loadExternalToolConfig (files (applyVaultDefaults v).toolConfig) = .ok toolCfg := hfile
    rw [resolveToolConfig, if_neg hskip, hread]
  have hloaded : resolved ∈ cfg.vaults := (hmem resolved).mpr ⟨v, hv, hresolve⟩
  have hget := registered_get hloaded fun v' hv' hid => List.inj_on_of_nodup_map hnodup hv' hloaded hid
  refine ⟨resolved.populateDefaults, hget.trans ?_⟩
  rw [newBackend_eq, if_pos (show resolved.type = "tool" from htype)]
  rfl

/-! ### The config store -/

/-- The way through the store: whatever is saved, no tool is run for it. -/
theorem stored_tool_lost {s : ConfigStore} {db db' : Database} {v : VaultConfig} {env env' : Surroundings}
    (hs : s.Sound db) (hsave : (s.saveVault v).run serve (env, db) = (.ok (), env', db')) :
    (∃ cfg, s.Loads db' cfg) ∧ ∀ cfg, s.Loads db' cfg → ∀ toolCfg, ¬cfg.RunsTool v.id toolCfg := by
  obtain ⟨hs', hgraph⟩ := ConfigStore.sound_saveVault hs hsave
  refine ⟨hs'.loads, ?_⟩
  rintro cfg hloads toolCfg ⟨c, hget⟩
  rcases registered_origin hget with hbefore | ⟨v', hv', hid, hnew⟩
  · cases hbefore
  · rw [ConfigStore.mem_vaults hs' hloads, hid, hgraph, References.Graph.nodes_putNode_self] at hv'
    obtain rfl := Option.some.inj hv'
    rw [newBackend_eq, VaultConfig.reread_resolvedTool] at hnew
    split_ifs at hnew
    cases hnew

/-- A vault of type tool is run from YAML, and never from the store. -/
theorem tool_vault_lost (s : ConfigStore) (rs : List (ConfigRequest × Surroundings))
    (h : Runs.Each (configured s) (Accepted s) .empty rs) {v : VaultConfig} {env env' : Surroundings}
    {db' : Database}
    (hsave : (s.saveVault v).run serve (env, rs.foldl (configured s) .empty) = (.ok (), env', db'))
    (htype : v.type = "tool") (files : String → Except GoError ExternalToolConfig)
    {toolCfg : ExternalToolConfig} (hfile : loadExternalToolConfig (files v.toolConfig) = .ok toolCfg)
    (hvalid : validateToolVault { v with resolvedTool := some toolCfg } = .ok ()) :
    ((∃ cfg, s.Loads db' cfg) ∧ ∀ cfg, s.Loads db' cfg → ¬cfg.RunsTool v.id toolCfg) ∧
      ∀ parsed cfg, v ∈ parsed.vaults → loadConfig (.ok parsed) files = .ok cfg →
        cfg.RunsTool v.id toolCfg := by
  obtain ⟨hloads, hlost⟩ := stored_tool_lost (always_sound s.sound_empty h).foldl hsave
  refine ⟨⟨hloads, fun cfg hcfg => hlost cfg hcfg toolCfg⟩, fun parsed cfg hv hload => ?_⟩
  have hpath := toolConfig_ne_empty hvalid
  exact loadConfig_runs_tool hload hv htype hpath hfile

/-- A password store behind a command. -/
def toolVault : VaultConfig := { id := "t", type := "tool", toolConfig := "tool.yaml" }

def toolFile : ExternalToolConfig :=
  { operations := [("list", some { command := "pass", args := ["ls"], successExitCodes := [0] }),
      ("get", some { command := "pass", args := ["show"], successExitCodes := [0] })] }

/-- The database after `SaveVault`. -/
def savedTool : Database := ((ConfigStore.saveVault {} toolVault).run serve ({}, .empty)).2.2

theorem run_saveTool : (ConfigStore.saveVault {} toolVault).run serve ({}, .empty) =
    (.ok (), ((ConfigStore.saveVault {} toolVault).run serve ({}, .empty)).2.1, savedTool) := rfl

theorem tool_vault_lost_pass :
    ((∃ cfg, ConfigStore.Loads {} savedTool cfg) ∧ ∀ cfg, ConfigStore.Loads {} savedTool cfg →
      ¬cfg.RunsTool "t" toolFile) ∧
      ∀ parsed cfg, toolVault ∈ parsed.vaults → loadConfig (.ok parsed) (fun _ => .ok toolFile) = .ok cfg →
        cfg.RunsTool "t" toolFile :=
  tool_vault_lost {} [] trivial run_saveTool rfl (fun _ => .ok toolFile) rfl rfl

/-- The YAML loader takes the vault, and its engine runs the tool; from the store it does not. -/
theorem tool_vault_disagrees :
    (∃ cfg, loadConfig (.ok { vaults := [toolVault] }) (fun _ => .ok toolFile) = .ok cfg ∧
        cfg.RunsTool "t" toolFile) ∧
      ∃ cfg, ConfigStore.Loads {} savedTool cfg ∧ ¬cfg.RunsTool "t" toolFile := by
  constructor
  · have hload : (loadConfig (.ok { vaults := [toolVault] }) fun _ => .ok toolFile).isOk := by
      decide +kernel
    rcases hcfg : loadConfig (.ok { vaults := [toolVault] }) fun _ => .ok toolFile with err | cfg
    · rw [hcfg] at hload
      cases hload
    · exact ⟨cfg, rfl, loadConfig_runs_tool hcfg List.mem_cons_self rfl (by decide) rfl⟩
  · obtain ⟨⟨cfg, hloads⟩, hlost⟩ := stored_tool_lost (ConfigStore.sound_empty {}) run_saveTool
    exact ⟨cfg, hloads, hlost cfg hloads toolFile⟩

end VaultsSyncer
