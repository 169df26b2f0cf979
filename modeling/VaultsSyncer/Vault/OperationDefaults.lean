import VaultsSyncer.GoStd.Map
import VaultsSyncer.Vault.Client

/-! The operation defaults of a vault type, merged into what the user overrides. Merging goes operation by
    operation and, in an operation, field by field; so all of it comes down to one entry
    (`lookup_applyDefaultOperations`):

        user's entry      default      after the merge
        absent or nil     d            d
        current           d            current, with the fields left open taken from d
        any               none         as it was

    The right column is a fixed point of the merge, and a client that is built again from its own
    configuration changes nothing. -/

namespace VaultsSyncer

open GoStd

/-- The fields of an operation that a user has set are those of the other one. -/
structure OperationConfig.Keeps (current merged : OperationConfig) : Prop where
  method : current.method ≠ "" → merged.method = current.method
  endpoint : current.endpoint ≠ "" → merged.endpoint = current.endpoint
  statusCodes : current.statusCodes ≠ [] → merged.statusCodes = current.statusCodes
  responseParser : current.responseParser ≠ none → merged.responseParser = current.responseParser

theorem OperationConfig.keeps_withDefaults (current d : OperationConfig) :
    current.Keeps (current.withDefaults d) where
  method := fun h => if_neg h
  endpoint := fun h => if_neg h
  statusCodes := fun h => if_neg h
  responseParser := fun h => Option.or_of_isSome (Option.isSome_iff_ne_none.mpr h)

/-- An entry after its default is merged in. -/
def mergedWith (d : OperationConfig) (user : Option OperationConfig) : OperationConfig :=
  (user.map (·.withDefaults d)).getD d

/-- What was filled in from the defaults is not filled in again. -/
theorem mergedWith_mergedWith (d : OperationConfig) (user : Option OperationConfig) :
    mergedWith d (some (mergedWith d user)) = mergedWith d user := by
  rcases user with _ | current
  · simp [mergedWith, OperationConfig.withDefaults]
  · simp only [mergedWith, Option.map_some, Option.getD_some, OperationConfig.withDefaults]
    congr 1
    · split_ifs <;> simp_all
    · split_ifs <;> simp_all
    · split_ifs <;> simp_all
    · cases current.responseParser <;> simp

/-! ### One entry after the merge -/

theorem lookup_merge (cfg : VaultConfig) (name op : String) (d : OperationConfig) :
    (mergeOperationDefaults cfg name d).operationEntries.lookup op =
      if op = name then some (some (mergedWith d (cfg.operationsOverride name)))
      else cfg.operationEntries.lookup op := by
  refine (lookup_setEntry cfg.operationEntries name op _).trans ?_
  split_ifs with h
  · cases cfg.operationsOverride name <;> rfl
  · rfl

theorem lookup_foldl_merge (op : String) : ∀ (defaults : List (String × OperationConfig))
    (cfg : VaultConfig), (defaults.map Prod.fst).Nodup →
      (defaults.foldl (fun cfg d => mergeOperationDefaults cfg d.1 d.2) cfg).operationEntries.lookup op =
        match defaults.lookup op with
        | some d => some (some (mergedWith d (cfg.operationsOverride op)))
        | none => cfg.operationEntries.lookup op
  | [], _, _ => rfl
  | (name, d) :: defaults, cfg, hnodup => by
      rw [List.map_cons, List.nodup_cons] at hnodup
      rw [List.foldl_cons, lookup_foldl_merge op defaults _ hnodup.2, List.lookup_cons]
      by_cases h : op = name
      · -- the name has no second default, so the entry stays as it is now
        subst h
        rw [lookup_eq_none_iff_notMem.mpr hnodup.1, lookup_merge, if_pos rfl, beq_self_eq_true]
      · have hsame : (mergeOperationDefaults cfg name d).operationEntries.lookup op =
            cfg.operationEntries.lookup op := by rw [lookup_merge, if_neg h]
        rw [beq_eq_false_iff_ne.mpr h, VaultConfig.operationsOverride, entry, hsame]
        rfl

theorem nodup_operationDefaults (vaultType endpoint : String) :
    ((operationDefaults vaultType endpoint).map Prod.fst).Nodup := by
  simp only [operationDefaults]
  split_ifs <;> simp

theorem lookup_applyDefaultOperations (cfg : VaultConfig) (op : String) :
    (applyDefaultOperations cfg).operationEntries.lookup op =
      match (operationDefaults cfg.getVaultType cfg.endpoint).lookup op with
      | some d => some (some (mergedWith d (cfg.operationsOverride op)))
      | none => cfg.operationEntries.lookup op :=
  lookup_foldl_merge op _ _ (nodup_operationDefaults _ _)

/-- Defaults only change the operations, and the map is not nil then. -/
theorem applyDefaultOperations_eq (cfg : VaultConfig) :
    ∃ ops, applyDefaultOperations cfg = { cfg with operations := some ops } := by
  have hfold : ∀ (defaults : List (String × OperationConfig)) entries, ∃ ops,
      defaults.foldl (fun cfg d => mergeOperationDefaults cfg d.1 d.2)
        { cfg with operations := some entries } = { cfg with operations := some ops } := by
    intro defaults
    induction defaults with
    | nil => exact fun entries => ⟨entries, rfl⟩
    | cons d defaults ih => exact fun _ => ih _
  exact hfold _ _

theorem newClient_auth (v : VaultConfig) : (newClient v).cfg.auth = v.auth := by
  obtain ⟨ops, hops⟩ := applyDefaultOperations_eq v.populateDefaults
  rw [newClient, hops]
  rfl

theorem operationsOverride_applyDefaultOperations (cfg : VaultConfig) (op : String) :
    (applyDefaultOperations cfg).operationsOverride op =
      match (operationDefaults cfg.getVaultType cfg.endpoint).lookup op with
      | some d => some (mergedWith d (cfg.operationsOverride op))
      | none => cfg.operationsOverride op := by
  rw [VaultConfig.operationsOverride, entry, lookup_applyDefaultOperations]
  cases (operationDefaults cfg.getVaultType cfg.endpoint).lookup op <;> rfl

theorem keeps_applyDefaultOperations {cfg : VaultConfig} {op : String} {current : OperationConfig}
    (h : cfg.operationsOverride op = some current) :
    ∃ merged, (applyDefaultOperations cfg).operationsOverride op = some merged ∧ current.Keeps merged := by
  rw [operationsOverride_applyDefaultOperations, h]
  cases (operationDefaults cfg.getVaultType cfg.endpoint).lookup op with
  | none => exact ⟨current, rfl, ⟨fun _ => rfl, fun _ => rfl, fun _ => rfl, fun _ => rfl⟩⟩
  | some d => exact ⟨_, rfl, current.keeps_withDefaults d⟩

/-! ### The merge as a whole -/

/-- Merged twice, the map `OperationsOverride` has the entries it has when merged once; and an operation
    that has no default, or a field that the user has set, is as it was. -/
structure DefaultsMerged (cfg : VaultConfig) (merge : VaultConfig → VaultConfig) : Prop where
  twice : ∀ op, (merge (merge cfg)).operationEntries.lookup op = (merge cfg).operationEntries.lookup op
  unmentioned : ∀ op, op ∉ (operationDefaults cfg.getVaultType cfg.endpoint).map Prod.fst →
    (merge cfg).operationEntries.lookup op = cfg.operationEntries.lookup op
  set : ∀ op current, cfg.operationsOverride op = some current →
    ∃ merged, (merge cfg).operationsOverride op = some merged ∧ current.Keeps merged

/-- For every vault type and every override, the defaults are merged once and for all, and only into what
    the user left open. -/
theorem defaults_merged (cfg : VaultConfig) : DefaultsMerged cfg applyDefaultOperations where
  twice := by
    intro op
    have hsame : operationDefaults (applyDefaultOperations cfg).getVaultType
        (applyDefaultOperations cfg).endpoint = operationDefaults cfg.getVaultType cfg.endpoint := by
      obtain ⟨ops, hops⟩ := applyDefaultOperations_eq cfg
      rw [hops]
      rfl
    rw [lookup_applyDefaultOperations (applyDefaultOperations cfg), hsame,
      operationsOverride_applyDefaultOperations]
    rcases hdefault : (operationDefaults cfg.getVaultType cfg.endpoint).lookup op with _ | d
    · rfl
    · rw [lookup_applyDefaultOperations, hdefault]
      dsimp only
      rw [mergedWith_mergedWith]
  unmentioned := by
    intro op hnot
    rw [lookup_applyDefaultOperations, lookup_eq_none_iff_notMem.mpr hnot]
  set := fun _ _ => keeps_applyDefaultOperations

end VaultsSyncer
