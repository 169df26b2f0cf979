import VaultsSyncer.Config.Vaults
import VaultsSyncer.GoStd.Map

/-! The environment of a tool's command (`runOp` in `vault/tool_backend.go`), on Unix. The entries that the
    daemon has inherited go into a map, then the configured ones, then those to pass through; so a later
    layer wins:

        inherited          A=1  B=1  C=1
        env                     B=2  C=2
        env_passthrough              C           (set, so its current value: C=1)
        command            A=1  B=2  C=1

    The map has each name once, and so has whatever order its entries are written out in
    (`command_environment`). -/

namespace VaultsSyncer

open GoStd

/-- The environment a process has: byte strings without a NUL, as a rule of the form `name=value` (61 is the
    byte of `=`). -/
structure ProcessEnv where
  entries : List Bytes
  noNul : ∀ entry ∈ entries, (0 : UInt8) ∉ entry

/-- `strings.Cut(entry, "=")`, where it finds one. -/
def binding (entry : Bytes) : Option (Bytes × Bytes) :=
  match cut 61 entry with
  | (name, some value) => some (name, value)
  | (_, none) => none

/-- The first mention of every name, and what is no binding at all. -/
def firstMentions (seen : List Bytes) : List Bytes → List Bytes
  | [] => []
  | entry :: entries =>
    match binding entry with
    | some (name, _) =>
      if name ∈ seen then firstMentions seen entries
      else entry :: firstMentions (name :: seen) entries
    | none => if entry = [] then firstMentions seen entries else entry :: firstMentions seen entries

/-- `os.Environ`. -/
def osEnviron (env : ProcessEnv) : List Bytes := firstMentions [] env.entries

/-- `os.LookupEnv`: the first mention, and never the empty name. -/
def lookupEnv (env : ProcessEnv) (name : Bytes) : Option Bytes :=
  if name = [] then none else (env.entries.filterMap binding).lookup name

/-- What os/exec takes for the name in an entry; a `=` at the very start belongs to it. -/
def dedupKey (entry : Bytes) : Option Bytes :=
  match binding entry with
  | none => none
  | some ([], rest) =>
    match binding rest with
    | some (name, _) => some (61 :: name)
    | none => some []
  | some (name, _) => some name

/-- The loop of `dedupEnv`, from the last entry to the first. -/
def lastMentions (saw : List Bytes) : List Bytes → List Bytes
  | [] => []
  | entry :: entries =>
    if 0 ∈ entry then lastMentions saw entries
    else match dedupKey entry with
      | some key =>
        if key ∈ saw then lastMentions saw entries else entry :: lastMentions (key :: saw) entries
      | none => if entry = [] then lastMentions saw entries else entry :: lastMentions saw entries

/-- `dedupEnv` of os/exec: the last mention of every name. -/
def dedupEnv (env : List Bytes) : List Bytes := (lastMentions [] env.reverse).reverse

/-- The map that `runOp` makes the command's environment from; with nothing configured the command
    inherits its environment. -/
def toolEnvMap (env : ProcessEnv) (cfg : ExternalToolConfig) : Option (List (Bytes × Bytes)) :=
  if cfg.env ≠ [] ∨ cfg.envPassthrough ≠ [] then
    let envMap := setEntries [] ((dedupEnv (osEnviron env)).filterMap binding)
    let envMap := setEntries envMap (cfg.env.map fun e => (utf8 e.1, utf8 e.2))
    some (setEntries envMap (cfg.envPassthrough.filterMap fun name =>
      (lookupEnv env (utf8 name)).map (utf8 name, ·)))
  else none

/-- The entries of `cmd.Env`, in the order the map is gone through. -/
def commandEnv (order : List (Bytes × Bytes)) : List Bytes := order.map fun e => e.1 ++ 61 :: e.2

/-! ### The inherited entries -/

/-- The value a process has inherited under a name: that of the first mention. -/
def ProcessEnv.value (env : ProcessEnv) (name : Bytes) : Option Bytes :=
  (env.entries.filterMap binding).lookup name

theorem binding_append {name : Bytes} (h : 61 ∉ name) (value : Bytes) :
    binding (name ++ 61 :: value) = some (name, value) := by
  rw [binding, cut_append h]

theorem notMem_of_binding {entry name value : Bytes} (h : binding entry = some (name, value)) :
    61 ∉ name := by
  rw [binding] at h
  have hnot := notMem_cut 61 entry
  rcases hcut : cut 61 entry with ⟨k, _ | v⟩
  · rw [hcut] at h
    cases h
  · rw [hcut] at h hnot
    cases h
    exact hnot

theorem firstMentions_sublist (seen entries : List Bytes) :
    (firstMentions seen entries).Sublist entries := by
  induction entries generalizing seen with
  | nil => exact .slnil
  | cons entry entries ih =>
    rw [firstMentions]
    split
    · split_ifs
      · exact (ih _).cons _
      · exact (ih _).cons_cons _
    · split_ifs
      · exact (ih _).cons _
      · exact (ih _).cons_cons _

theorem ne_nil_of_mem_firstMentions {seen entries : List Bytes} {entry : Bytes}
    (h : entry ∈ firstMentions seen entries) : entry ≠ [] := by
  induction entries generalizing seen with
  | nil => cases h
  | cons e entries ih =>
    rw [firstMentions] at h
    split at h
    · rename_i hbinding
      split_ifs at h
      · exact ih h
      · rcases List.mem_cons.mp h with rfl | h
        · rintro rfl
          cases hbinding
        · exact ih h
    · split_ifs at h with hempty
      · exact ih h
      · rcases List.mem_cons.mp h with rfl | h
        · exact hempty
        · exact ih h

/-- No name is mentioned twice, and none that has been seen before. -/
theorem nodup_firstMentions (seen entries : List Bytes) :
    (((firstMentions seen entries).filterMap binding).map Prod.fst).Nodup ∧
      ∀ name ∈ ((firstMentions seen entries).filterMap binding).map Prod.fst, name ∉ seen := by
  induction entries generalizing seen with
  | nil => exact ⟨List.nodup_nil, by simp [firstMentions]⟩
  | cons entry entries ih =>
    rw [firstMentions]
    split
    · rename_i name value hbinding
      split_ifs with hseen
      · exact ih seen
      · obtain ⟨hnodup, hfresh⟩ := ih (name :: seen)
        rw [List.filterMap_cons_some hbinding, List.map_cons, List.nodup_cons, List.forall_mem_cons]
        refine ⟨⟨fun hmem => hfresh name hmem List.mem_cons_self, hnodup⟩, hseen, ?_⟩
        exact fun other hother hmem => hfresh other hother (List.mem_cons_of_mem _ hmem)
    · rename_i hbinding
      split_ifs
      · exact ih seen
      · rw [List.filterMap_cons_none hbinding]
        exact ih seen

theorem lookup_firstMentions {seen : List Bytes} {name : Bytes} (h : name ∉ seen)
    (entries : List Bytes) : ((firstMentions seen entries).filterMap binding).lookup name =
      (entries.filterMap binding).lookup name := by
  induction entries generalizing seen with
  | nil => rfl
  | cons entry entries ih =>
    rw [firstMentions]
    split
    · rename_i k value hbinding
      rw [List.filterMap_cons_some hbinding]
      by_cases hname : name = k
      · subst hname
        rw [if_neg h, List.filterMap_cons_some hbinding, List.lookup_cons, List.lookup_cons,
          beq_self_eq_true]
      · have hbeq : (name == k) = false := beq_eq_false_iff_ne.mpr hname
        rw [List.lookup_cons, hbeq]
        split_ifs
        · exact ih h
        · rw [List.filterMap_cons_some hbinding, List.lookup_cons, hbeq]
          exact ih (by simp [hname, h])
    · rename_i hbinding
      rw [List.filterMap_cons_none hbinding]
      split_ifs
      · exact ih h
      · rw [List.filterMap_cons_none hbinding]
        exact ih h

/-! ### Nothing is left to remove -/

/-- The name that is meant by what os/exec takes for it. -/
def nameOfKey (key : Bytes) : Bytes := if key.head? = some 61 then [] else key

theorem nameOfKey_dedupKey (entry : Bytes) :
    (dedupKey entry).map nameOfKey = (binding entry).map Prod.fst := by
  rw [dedupKey]
  split
  · rename_i hbinding
    rw [hbinding]
    rfl
  · rename_i rest hbinding
    rw [hbinding]
    split <;> rfl
  · rename_i name value hname hbinding
    rw [hbinding, Option.map_some, Option.map_some, nameOfKey, if_neg]
    intro hhead
    exact notMem_of_binding hbinding (List.mem_of_mem_head? hhead)

theorem nodup_dedupKey {entries : List Bytes}
    (h : ((entries.filterMap binding).map Prod.fst).Nodup) : (entries.filterMap dedupKey).Nodup := by
  rw [List.map_filterMap] at h
  refine List.Nodup.of_map nameOfKey ?_
  rw [List.map_filterMap]
  simpa only [nameOfKey_dedupKey] using h

theorem lastMentions_eq_self {saw entries : List Bytes} (hnul : ∀ entry ∈ entries, (0 : UInt8) ∉ entry)
    (hempty : ∀ entry ∈ entries, entry ≠ []) (hnodup : (entries.filterMap dedupKey).Nodup)
    (hsaw : ∀ key ∈ entries.filterMap dedupKey, key ∉ saw) : lastMentions saw entries = entries := by
  induction entries generalizing saw with
  | nil => rfl
  | cons entry entries ih =>
    rw [List.forall_mem_cons] at hnul hempty
    rw [lastMentions, if_neg hnul.1]
    split
    · rename_i key hkey
      rw [List.filterMap_cons_some hkey] at hnodup hsaw
      rw [List.nodup_cons] at hnodup
      rw [List.forall_mem_cons] at hsaw
      rw [if_neg hsaw.1, ih hnul.2 hempty.2 hnodup.2]
      intro other hother hmem
      rcases List.mem_cons.mp hmem with rfl | hmem
      · exact hnodup.1 hother
      · exact hsaw.2 other hother hmem
    · rename_i hkey
      rw [List.filterMap_cons_none hkey] at hnodup hsaw
      rw [if_neg hempty.1, ih hnul.2 hempty.2 hnodup hsaw]

/-- `os.Environ` has no name twice, so os/exec leaves it as it is. -/
theorem dedupEnv_osEnviron (env : ProcessEnv) : dedupEnv (osEnviron env) = osEnviron env := by
  have hnodup := nodup_dedupKey (nodup_firstMentions [] env.entries).1
  rw [dedupEnv, lastMentions_eq_self, List.reverse_reverse]
  · intro entry hentry
    exact env.noNul entry ((firstMentions_sublist _ _).subset (List.mem_reverse.mp hentry))
  · exact fun entry hentry => ne_nil_of_mem_firstMentions (List.mem_reverse.mp hentry)
  · rw [List.filterMap_reverse, List.nodup_reverse]
    exact hnodup
  · exact fun key _ => List.not_mem_nil

/-! ### The command's environment -/

/-- What the command finds under a name: the daemon's current value if it is to be passed through and
    set, else the configured value if there is one, else the inherited one. -/
def toolValue (env : ProcessEnv) (cfg : ExternalToolConfig) (name : Bytes) : Option Bytes :=
  let passed := if name ∈ cfg.envPassthrough.map utf8 then lookupEnv env name else none
  (passed.or ((cfg.env.map fun e => (utf8 e.1, utf8 e.2)).lookup name)).or (env.value name)

/-- An environment that binds exactly the names that `value` has something for, each once. -/
structure Binds (entries : List Bytes) (value : Bytes → Option Bytes) : Prop where
  named : ∀ entry ∈ entries, (binding entry).isSome
  once : ((entries.filterMap binding).map Prod.fst).Nodup
  bound : ∀ name v, (∃ entry ∈ entries, binding entry = some (name, v)) ↔ value name = some v

section

variable {env : ProcessEnv} {cfg : ExternalToolConfig}

theorem lookup_toolEnvMap (hkeys : (cfg.env.map Prod.fst).Nodup) {envMap : List (Bytes × Bytes)}
    (hmap : toolEnvMap env cfg = some envMap) (name : Bytes) :
    envMap.lookup name = toolValue env cfg name := by
  rw [toolEnvMap] at hmap
  split_ifs at hmap
  rw [← Option.some.inj hmap]
  have hinherited : (((dedupEnv (osEnviron env)).filterMap binding).map Prod.fst).Nodup := by
    rw [dedupEnv_osEnviron]
    exact (nodup_firstMentions [] env.entries).1
  have henv : ((cfg.env.map fun e => (utf8 e.1, utf8 e.2)).map Prod.fst).Nodup := by
    have hutf8 := hkeys.map utf8_injective
    rwa [List.map_map] at hutf8 ⊢
  have hpassed : (cfg.envPassthrough.filterMap fun name =>
      (lookupEnv env (utf8 name)).map (utf8 name, ·)).reverse.lookup name =
      if name ∈ cfg.envPassthrough.map utf8 then lookupEnv env name else none := by
    have hfilterMap := lookup_filterMap (lookupEnv env) (cfg.envPassthrough.map utf8).reverse name
    rw [List.filterMap_reverse, List.filterMap_map] at hfilterMap
    simpa using hfilterMap
  rw [lookup_setEntries, hpassed, lookup_setEntries_of_nodup henv, lookup_setEntries_of_nodup hinherited,
    dedupEnv_osEnviron, osEnviron, lookup_firstMentions List.not_mem_nil, List.lookup_nil, Option.or_none,
    toolValue, Option.or_assoc]
  rfl

theorem nodup_toolEnvMap {envMap : List (Bytes × Bytes)} (hmap : toolEnvMap env cfg = some envMap) :
    (envMap.map Prod.fst).Nodup := by
  rw [toolEnvMap] at hmap
  split_ifs at hmap
  rw [← Option.some.inj hmap]
  have hnil : (([] : List (Bytes × Bytes)).map Prod.fst).Nodup := List.nodup_nil
  exact nodup_setEntries (nodup_setEntries (nodup_setEntries hnil _) _) _

/-- What has a value is a name: there is no `=` in it. -/
theorem notMem_of_toolValue (hnames : ∀ name ∈ cfg.env.map Prod.fst ++ cfg.envPassthrough, 61 ∉ utf8 name)
    {name value : Bytes} (h : toolValue env cfg name = some value) : 61 ∉ name := by
  have hentries {m : List (Bytes × Bytes)} {v : Bytes} (hlookup : m.lookup name = some v) :
      name ∈ m.map Prod.fst := by
    by_contra hnot
    rw [lookup_eq_none_iff_notMem.mpr hnot] at hlookup
    cases hlookup
  rw [toolValue, Option.or_eq_some_iff, Option.or_eq_some_iff] at h
  rcases h with (h | ⟨-, h⟩) | ⟨-, h⟩
  · split_ifs at h with hpassed
    obtain ⟨text, htext, rfl⟩ := List.mem_map.mp hpassed
    exact hnames text (List.mem_append_right _ htext)
  · obtain ⟨e, he, rfl⟩ := List.mem_map.mp (hentries h)
    obtain ⟨e', he', rfl⟩ := List.mem_map.mp he
    exact hnames e'.1 (List.mem_append_left _ (List.mem_map_of_mem he'))
  · obtain ⟨e, he, rfl⟩ := List.mem_map.mp (hentries h)
    obtain ⟨entry, -, hentry⟩ := List.mem_filterMap.mp he
    exact notMem_of_binding hentry

/-- The entries that a map is written out to bind what the map binds. -/
theorem binds_commandEnv {order : List (Bytes × Bytes)} {value : Bytes → Option Bytes}
    (hnodup : (order.map Prod.fst).Nodup) (hlookup : ∀ name, order.lookup name = value name)
    (hnames : ∀ e ∈ order, 61 ∉ e.1) : Binds (commandEnv order) value := by
  have hbinding : ∀ e ∈ order, binding (e.1 ++ 61 :: e.2) = some e :=
    fun e he => binding_append (hnames e he) e.2
  have hentries : (commandEnv order).filterMap binding = order := by
    rw [commandEnv, List.filterMap_map]
    exact (List.filterMap_congr hbinding).trans List.filterMap_some
  refine ⟨fun entry hentry => ?_, by rwa [hentries], fun name v => ?_⟩
  · obtain ⟨e, he, rfl⟩ := List.mem_map.mp hentry
    rw [hbinding e he]
    rfl
  · have hmem : (name, v) ∈ (commandEnv order).filterMap binding ↔
        ∃ entry ∈ commandEnv order, binding entry = some (name, v) := List.mem_filterMap
    rw [← hlookup, lookup_eq_some_iff_mem hnodup, ← hmem, hentries]

/-- Whatever the order of the maps, the command finds every name once, under the value of the uppermost
    layer that has one, and no other names. -/
theorem command_environment (hset : cfg.env ≠ [] ∨ cfg.envPassthrough ≠ [])
    (hkeys : (cfg.env.map Prod.fst).Nodup)
    (hnames : ∀ name ∈ cfg.env.map Prod.fst ++ cfg.envPassthrough, 61 ∉ utf8 name) :
    ∃ envMap, toolEnvMap env cfg = some envMap ∧
      ∀ order, order.Perm envMap → Binds (commandEnv order) (toolValue env cfg) := by
  obtain ⟨envMap, hmap⟩ : ∃ envMap, toolEnvMap env cfg = some envMap := by
    rw [toolEnvMap, if_pos hset]
    exact ⟨_, rfl⟩
  refine ⟨envMap, hmap, fun order horder => ?_⟩
  have hnodup := nodup_toolEnvMap hmap
  have hordered : (order.map Prod.fst).Nodup := (horder.map Prod.fst).nodup_iff.mpr hnodup
  have hlookup (name : Bytes) : order.lookup name = toolValue env cfg name := by
    rw [lookup_perm horder.symm hnodup, lookup_toolEnvMap hkeys hmap]
  refine binds_commandEnv hordered hlookup fun e he => ?_
  exact notMem_of_toolValue hnames ((hlookup e.1).symm.trans ((lookup_eq_some_iff_mem hordered).mpr he))

end

/-- An inherited variable that is configured anew, and passed through. -/
def homeEnv : ProcessEnv where
  entries := [utf8 "HOME=/root", utf8 "TOKEN=old"]
  noNul := by decide +kernel

theorem command_environment_home : ∃ envMap,
    toolEnvMap homeEnv { env := [("TOKEN", "x")], envPassthrough := ["TOKEN"] } = some envMap ∧
      ∀ order, order.Perm envMap → Binds (commandEnv order)
        (toolValue homeEnv { env := [("TOKEN", "x")], envPassthrough := ["TOKEN"] }) :=
  command_environment (.inl (by simp)) (by simp) (by decide +kernel)

end VaultsSyncer
