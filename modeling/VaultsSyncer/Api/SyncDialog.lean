import VaultsSyncer.Api.StoredConfig
import VaultsSyncer.Browser.Html

/-! The sync dialog of the web page (`api/web/index.html`): it reads a sync from the API, fills a form
    with it, and puts what the form holds back.

        GET              normalizeSyncConfig      the form      payload      PUT
        all fields   →   seven of them        →   texts     →   seven    →   the row replaced

    The three fields that the page does not know (filter, transforms, retry policy) are gone from the
    row after that, whatever was edited. -/

namespace VaultsSyncer

open GoStd Schemes Schemes.Prog

/-! ### Reading a sync -/

/-- The first of the properties that is there and not null. -/
def pick (obj : Json) (keys : List String) : Option Json :=
  keys.findSome? fun key =>
    match obj with
    | .object ms =>
      match ms.reverse.lookup key with
      | some .null => none
      | value => value
    | _ => none

/-- The text of a property, empty where there is none. -/
def asText : Option Json → String
  | some (.string s) => s
  | _ => ""

/-- The texts of a property, none where it is no array. -/
def asTexts : Option Json → List String
  | some (.array js) => js.map fun j => asText (some j)
  | _ => []

/-- The whole number of a property, 0 where there is none. -/
def asNumber (j : Option Json) : ℤ := (j.bind Codec.int.dec).getD 0

def isSyncEnabled (sync : Json) : Bool :=
  match pick sync ["enabled", "Enabled"] with
  | some (.bool b) => b
  | _ => true

/-- What the page keeps of a sync. -/
structure NormalizedSync where
  id : String
  source : String
  targets : List String
  syncType : String
  schedule : String
  enabled : Bool
  concurrentWorkers : ℤ

def normalizeSyncConfig (sync : Json) : NormalizedSync where
  id := asText (pick sync ["id", "ID"])
  source := asText (pick sync ["source", "Source"])
  targets := asTexts (pick sync ["targets", "Targets"])
  syncType :=
    let t := asText (pick sync ["sync_type", "SyncType"])
    if t = "" then "unidirectional" else t
  schedule := asText (pick sync ["schedule", "Schedule"])
  enabled := isSyncEnabled sync
  concurrentWorkers :=
    let n := asNumber (pick sync ["concurrent_workers", "ConcurrentWorkers"])
    if n = 0 then 1 else n

/-! ### The form -/

/-- One character after the other, as the four replacements do it. -/
def escHtml (s : String) : String := String.ofList (s.toList.flatMap Browser.escape)

def trimToNull (value : String) : Option String :=
  if Browser.trim value = "" then none else some (Browser.trim value)

/-- What the fields of the dialog hold. -/
structure SyncForm where
  id : String
  source : String
  targets : List String
  syncType : String
  schedule : String
  concurrentWorkers : ℤ
  enabled : Bool

/-- A text field that is written with its value. -/
def textInput (value : String) : String := Browser.textField (Browser.attributeValue (escHtml value))

/-- The options of the vaults, with those of them marked that `p` takes. -/
def vaultOptions (vaultIDs : List String) (p : String → Bool) : List Browser.SelectOption :=
  vaultIDs.map fun id => ⟨Browser.attributeValue (escHtml id), p id⟩

/-- `MultiSelect`: the options whose value is one of the values selected are selected. -/
def syncNative (options : List Browser.SelectOption) : List Browser.SelectOption :=
  options.map fun o => { o with selected := o.value ∈ Browser.selectedOptions options }

/-- The dialog for a sync, on a page that knows these vaults. A number of workers is shown in digits and
    read back from them. -/
def openSyncDialog (vaultIDs : List String) (sync : NormalizedSync) : SyncForm where
  id := textInput sync.id
  source := Browser.selectValue (⟨"", false⟩ :: vaultOptions vaultIDs fun id => sync.source = id)
  targets := Browser.selectedOptions
    (syncNative (vaultOptions vaultIDs fun id => id ∈ sync.targets))
  syncType := Browser.selectValue
    (["unidirectional", "bidirectional"].map fun type => ⟨type, sync.syncType = type⟩)
  schedule := textInput sync.schedule
  concurrentWorkers := sync.concurrentWorkers
  enabled := sync.enabled

/-- The body of the request, member by member. -/
def payloadMembers (id source : String) (targets : List String) (syncType schedule : String) (enabled : Bool)
    (workers : ℤ) : List (String × Json) :=
  [("id", .string id), ("ID", .string id), ("source", .string source), ("Source", .string source),
    ("targets", .array (targets.map .string)), ("Targets", .array (targets.map .string)),
    ("sync_type", .string syncType), ("SyncType", .string syncType),
    ("schedule", .string schedule), ("Schedule", .string schedule),
    ("enabled", .bool enabled), ("Enabled", .bool enabled),
    ("concurrent_workers", .int workers), ("ConcurrentWorkers", .int workers)]

/-- The body of the request, or what the dialog reports. What the browser itself asks of the fields
    (`required`, `min` and `max`) turns no other form away. -/
def SyncForm.submit (form : SyncForm) (syncId : String) : Except String Json :=
  let id := (trimToNull form.id).getD syncId
  match trimToNull form.source, trimToNull form.schedule with
  | some source, some schedule =>
    if id = "" ∨ form.targets = [] then .error "All sync fields are required."
    else if form.concurrentWorkers < 1 ∨ form.concurrentWorkers > 20 then
      .error "Concurrent workers must be between 1 and 20."
    else .ok (.object (payloadMembers id source form.targets form.syncType schedule form.enabled
      form.concurrentWorkers))
  | _, _ => .error "All sync fields are required."

/-- `JSON.stringify`, up to which characters it escapes. -/
def stringify (j : Json) : String := String.ofList j.print

/-! ### Saving without changes -/

def extractErrorMessage (payload : Json) (fallback : String) : String :=
  let message := asText (pick payload ["error", "message", "status"])
  if message = "" then fallback else message

/-- `apiFetch`: the body of an answer that is fine, and else the error that is thrown. -/
def apiFetch (request : Db ApiReply) : Db (Except String Json) := do
  let reply ← request
  if reply.Success then return .ok reply.body
  else return .error (extractErrorMessage reply.body ("HTTP " ++ toString reply.status))

/-- The ids that no handler gets out of a path: a dot segment is cleaned away, and a wildcard does not take
    a slash. -/
def unaddressed : List String := [".", "..", "/"]

/-- The dialog is opened for a sync, and its form is submitted as it is. -/
def saveUnchanged (s : ConfigStore) (vaultIDs : List String) (syncId : String) :
    Db (Except String Unit) := do
  if syncId ∈ unaddressed then return .error "404 page not found\n"
  else
    match ← apiFetch (ConfigHandler.getSyncConfig s syncId) with
    | .error message => return .error message
    | .ok data =>
      match (openSyncDialog vaultIDs (normalizeSyncConfig data)).submit syncId with
      | .error message => return .error message
      | .ok payload =>
        match ← apiFetch (ConfigHandler.updateSync s syncId
          (SyncConfig.codec.unmarshal (stringify payload))) with
        | .error message => return .error message
        | .ok _ => return .ok ()

/-! ### What the dialog makes of a sync -/

theorem SyncConfig.enc_eq (sc : SyncConfig) : SyncConfig.codec.enc sc = .object
    [("id", .string sc.id), ("source", .string sc.source), ("targets", .array (sc.targets.map .string)),
      ("sync_type", .string sc.syncType), ("schedule", .string sc.schedule),
      ("filter", FilterConfig.codec.enc sc.filter),
      ("transforms", .array (sc.transforms.map Transform.codec.enc)),
      ("retry_policy", RetryPolicy.codec.enc sc.retryPolicy),
      ("concurrent_workers", .int sc.concurrentWorkers),
      ("enabled", (Codec.bool.pointer Codec.bool_enc_ne_null).enc sc.enabled)] := rfl

theorem asNumber_int (i : ℤ) : asNumber (some (.int i)) = i := by
  have hdec : Codec.int.dec (Json.int i) = some i := Codec.int.dec_enc i
  rw [asNumber, Option.bind_some, hdec, Option.getD_some]

theorem pick_of_lookup {ms : List (String × Json)} {key : String} {keys : List String} {j : Json}
    (h : ms.reverse.lookup key = some j) (hj : j ≠ .null) :
    pick (.object ms) (key :: keys) = some j := by
  rw [pick, List.findSome?_cons]
  dsimp only
  rw [h]
  cases j with
  | null => exact absurd rfl hj
  | _ => rfl

/-- What the page keeps of the answer for a sync. -/
theorem normalizeSyncConfig_enc (sc : SyncConfig) :
    normalizeSyncConfig (SyncConfig.codec.enc sc) =
      { id := sc.id, source := sc.source, targets := sc.targets
        syncType := if sc.syncType = "" then "unidirectional" else sc.syncType
        schedule := sc.schedule, enabled := sc.isEnabled
        concurrentWorkers := if sc.concurrentWorkers = 0 then 1 else sc.concurrentWorkers } := by
  have hid : pick (SyncConfig.codec.enc sc) ["id", "ID"] = some (.string sc.id) :=
    pick_of_lookup rfl (by simp)
  have hsource : pick (SyncConfig.codec.enc sc) ["source", "Source"] = some (.string sc.source) :=
    pick_of_lookup rfl (by simp)
  have htargets : pick (SyncConfig.codec.enc sc) ["targets", "Targets"] =
      some (.array (sc.targets.map .string)) := pick_of_lookup rfl (by simp)
  have htype : pick (SyncConfig.codec.enc sc) ["sync_type", "SyncType"] = some (.string sc.syncType) :=
    pick_of_lookup rfl (by simp)
  have hschedule : pick (SyncConfig.codec.enc sc) ["schedule", "Schedule"] =
      some (.string sc.schedule) := pick_of_lookup rfl (by simp)
  have hworkers : pick (SyncConfig.codec.enc sc) ["concurrent_workers", "ConcurrentWorkers"] =
      some (.int sc.concurrentWorkers) := pick_of_lookup rfl (by simp [Json.int])
  have henabled : isSyncEnabled (SyncConfig.codec.enc sc) = sc.isEnabled := by
    rw [isSyncEnabled, SyncConfig.enc_eq, SyncConfig.isEnabled]
    rcases sc.enabled with _ | b
    · rfl
    · rfl
  have htexts : asTexts (some (.array (sc.targets.map .string))) = sc.targets := by
    simp [asTexts, asText, Function.comp_def]
  rw [normalizeSyncConfig, hid, hsource, htargets, htype, hschedule, hworkers, henabled, htexts,
    asNumber_int]
  rfl

section Payload

variable (id source : String) (targets : List String) (syncType schedule : String) (enabled : Bool)
  (workers : ℤ)

/-- The member a field is read from, by its lower case. -/
theorem member_payload {name : String} (h : toLower name = name) :
    member name (payloadMembers id source targets syncType schedule enabled workers) =
      [("concurrentworkers", .int workers), ("concurrent_workers", .int workers), ("enabled", .bool enabled),
        ("enabled", .bool enabled), ("schedule", .string schedule), ("schedule", .string schedule),
        ("synctype", .string syncType), ("sync_type", .string syncType),
        ("targets", .array (targets.map .string)), ("targets", .array (targets.map .string)),
        ("source", .string source), ("source", .string source), ("id", .string id),
        ("id", Json.string id)].lookup name := by
  have hlower : ["id", "ID", "source", "Source", "targets", "Targets", "sync_type", "SyncType", "schedule",
      "Schedule", "enabled", "Enabled", "concurrent_workers", "ConcurrentWorkers"].map toLower =
      ["id", "id", "source", "source", "targets", "targets", "sync_type", "synctype", "schedule",
        "schedule", "enabled", "enabled", "concurrent_workers", "concurrentworkers"] := by
    decide +kernel
  simp only [List.map_cons, List.map_nil, List.cons.injEq, and_true] at hlower
  simp only [member_eq_lookup, h, payloadMembers, List.reverse_cons, List.reverse_nil, List.nil_append,
    List.cons_append, List.map_cons, List.map_nil, hlower]

/-- The sync a body of the dialog decodes to: the fields it does not carry are zero. -/
theorem dec_payload : SyncConfig.codec.dec
    (.object (payloadMembers id source targets syncType schedule enabled workers)) =
      some { id, source, targets, syncType, schedule, concurrentWorkers := workers
             enabled := some enabled } := by
  have hmember {name : String} (h : toLower name = name) :=
    member_payload id source targets syncType schedule enabled workers h
  generalize payloadMembers id source targets syncType schedule enabled workers = ms at hmember ⊢
  have hid : field ms "id" .string = some id :=
    field_of_member (a := id) ((hmember (by decide +kernel)).trans rfl)
  have hsource : field ms "source" .string = some source :=
    field_of_member (a := source) ((hmember (by decide +kernel)).trans rfl)
  have htargets : field ms "targets" (.list .string) = some targets := by
    rw [field_of_member (c := Codec.list .string) (a := targets)
      ((hmember (by decide +kernel : toLower "targets" = "targets")).trans rfl)]
    exact congrArg some (List.map_id _)
  have htype : field ms "sync_type" .string = some syncType :=
    field_of_member (a := syncType) ((hmember (by decide +kernel)).trans rfl)
  have hschedule : field ms "schedule" .string = some schedule :=
    field_of_member (a := schedule) ((hmember (by decide +kernel)).trans rfl)
  have hfilter : field ms "filter" FilterConfig.codec = some {} :=
    field_of_none ((hmember (by decide +kernel)).trans rfl)
  have htransforms : field ms "transforms" (.list Transform.codec) = some [] :=
    field_of_none ((hmember (by decide +kernel)).trans rfl)
  have hretry : field ms "retry_policy" RetryPolicy.codec = some {} :=
    field_of_none ((hmember (by decide +kernel)).trans rfl)
  have hworkers : field ms "concurrent_workers" .int = some workers :=
    field_of_member (c := Codec.int) (a := workers) ((hmember (by decide +kernel)).trans rfl)
  have henabled : field ms "enabled" (Codec.bool.pointer Codec.bool_enc_ne_null) = some (some enabled) :=
    field_of_member (a := some enabled) ((hmember (by decide +kernel)).trans rfl)
  simp only [SyncConfig.codec, Fields.codec, Fields.add, Fields.start, hid, hsource, htargets, htype,
    hschedule, hfilter, htransforms, hretry, hworkers, henabled, Option.bind_eq_bind, Option.bind_some,
    Option.pure_def]

end Payload

/-! ### What the form holds -/

theorem attributeValue_escHtml (s : String) : Browser.attributeValue (escHtml s) = Browser.shown s :=
  Browser.attributeValue_escape s

theorem selectValue_vaults (vaultIDs : List String) (source : String) :
    Browser.selectValue (⟨"", false⟩ :: vaultOptions vaultIDs fun id => source = id) =
      if source ∈ vaultIDs then Browser.shown source else "" := by
  have hmarked : ((⟨"", false⟩ :: vaultOptions vaultIDs fun id => source = id).filter
      Browser.SelectOption.selected) =
        (vaultIDs.filter fun id => source = id).map fun id => ⟨Browser.shown id, true⟩ := by
    simp only [List.filter_cons, Bool.false_eq_true, ↓reduceIte, vaultOptions, List.filter_map,
      attributeValue_escHtml]
    refine List.map_congr_left fun id hid => ?_
    rw [List.mem_filter] at hid
    simpa using hid.2
  have hcount : (vaultIDs.filter fun id => source = id) =
      List.replicate (vaultIDs.count source) source := by
    rw [← List.filter_eq]
    exact List.filter_congr fun id _ => decide_eq_decide.mpr eq_comm
  rw [Browser.selectValue, hmarked, hcount]
  split_ifs with h
  · have hpos := List.count_pos_iff.mpr h
    obtain ⟨n, hn⟩ := Nat.exists_eq_succ_of_ne_zero hpos.ne'
    rw [hn, List.replicate_succ', List.map_append, List.getLast?_append]
    rfl
  · rw [List.count_eq_zero.mpr h]
    rfl

/-- The targets that the form holds: the vaults, as the page shows them, that look like one of the
    targets it has found. -/
def shownTargets (vaultIDs targets : List String) : List String :=
  (vaultIDs.map Browser.shown).filter fun v =>
    v ∈ (vaultIDs.filter fun id => id ∈ targets).map Browser.shown

theorem selectedOptions_vaults (vaultIDs targets : List String) :
    Browser.selectedOptions (syncNative (vaultOptions vaultIDs fun id => id ∈ targets)) =
      shownTargets vaultIDs targets := by
  have hvalues : Browser.selectedOptions (vaultOptions vaultIDs fun id => id ∈ targets) =
      (vaultIDs.filter fun id => id ∈ targets).map Browser.shown := by
    simp only [Browser.selectedOptions, vaultOptions, List.filter_map, List.map_map,
      Function.comp_def, attributeValue_escHtml]
  rw [Browser.selectedOptions, syncNative, hvalues, shownTargets]
  simp only [vaultOptions, List.filter_map, List.map_map, Function.comp_def, attributeValue_escHtml]

/-- The dialog opens and turns no form away: the sync can be addressed, the vaults are known, no text is
    blank, and the workers are at most 20. -/
structure Submits (vaultIDs : List String) (sc : SyncConfig) : Prop where
  addressed : sc.id ∉ unaddressed
  id : sc.id ≠ ""
  source : sc.source ∈ vaultIDs
  source_text : ¬Browser.Blank sc.source
  targets : ∃ t ∈ sc.targets, t ∈ vaultIDs
  schedule : ¬Browser.Blank sc.schedule
  workers : 0 ≤ sc.concurrentWorkers ∧ sc.concurrentWorkers ≤ 20

/-- The sync that the dialog puts in place of one that was opened. -/
def resubmitted (vaultIDs : List String) (sc : SyncConfig) : SyncConfig where
  id := sc.id
  source := Browser.trim (Browser.shown sc.source)
  targets := shownTargets vaultIDs sc.targets
  syncType := if sc.syncType = "bidirectional" then "bidirectional" else "unidirectional"
  schedule := Browser.trim (Browser.textField (Browser.shown sc.schedule))
  concurrentWorkers := if sc.concurrentWorkers = 0 then 1 else sc.concurrentWorkers
  enabled := some sc.isEnabled

section Form

variable {vaultIDs : List String} {sc : SyncConfig}

theorem openSyncDialog_enc : openSyncDialog vaultIDs (normalizeSyncConfig (SyncConfig.codec.enc sc)) =
    { id := Browser.textField (Browser.shown sc.id)
      source := if sc.source ∈ vaultIDs then Browser.shown sc.source else ""
      targets := (resubmitted vaultIDs sc).targets
      syncType := (resubmitted vaultIDs sc).syncType
      schedule := Browser.textField (Browser.shown sc.schedule)
      concurrentWorkers := (resubmitted vaultIDs sc).concurrentWorkers
      enabled := sc.isEnabled } := by
  have htype (t : String) : Browser.selectValue (["unidirectional", "bidirectional"].map fun type =>
      ⟨type, (if t = "" then "unidirectional" else t) = type⟩) =
        if t = "bidirectional" then "bidirectional" else "unidirectional" := by
    by_cases hbi : t = "bidirectional"
    · subst hbi
      decide
    by_cases huni : t = "unidirectional"
    · subst huni
      decide
    by_cases hempty : t = ""
    · subst hempty
      decide
    · simp [Browser.selectValue, hbi, huni, hempty]
  rw [normalizeSyncConfig_enc, openSyncDialog, selectValue_vaults, selectedOptions_vaults, htype]
  simp only [textInput, attributeValue_escHtml]
  rfl

theorem trimToNull_of_blank {s : String} (h : Browser.Blank s) : trimToNull s = none :=
  if_pos (Browser.trim_eq_empty.mpr h)

theorem trimToNull_of_not_blank {s : String} (h : ¬Browser.Blank s) :
    trimToNull s = some (Browser.trim s) := if_neg (mt Browser.trim_eq_empty.mp h)

theorem shownTargets_eq_nil {targets : List String} :
    shownTargets vaultIDs targets = [] ↔ ¬∃ t ∈ targets, t ∈ vaultIDs := by
  rw [shownTargets, List.filter_eq_nil_iff]
  constructor
  · rintro h ⟨t, ht, hvault⟩
    refine h (Browser.shown t) (List.mem_map_of_mem hvault) ?_
    rw [decide_eq_true_eq]
    exact List.mem_map_of_mem (List.mem_filter.mpr ⟨hvault, by simpa using ht⟩)
  · intro h v _ hv
    rw [decide_eq_true_eq] at hv
    obtain ⟨t, ht, -⟩ := List.mem_map.mp hv
    rw [List.mem_filter, decide_eq_true_eq] at ht
    exact h ⟨t, ht.2, ht.1⟩

/-- A form that is sent carries the seven fields of the sync as the page holds them. -/
theorem submit_of_submits (h : Submits vaultIDs sc) : ∃ id,
    (openSyncDialog vaultIDs (normalizeSyncConfig (SyncConfig.codec.enc sc))).submit sc.id =
      .ok (.object (payloadMembers id (resubmitted vaultIDs sc).source
        (resubmitted vaultIDs sc).targets (resubmitted vaultIDs sc).syncType
        (resubmitted vaultIDs sc).schedule sc.isEnabled (resubmitted vaultIDs sc).concurrentWorkers)) := by
  have hsource := trimToNull_of_not_blank (mt (Browser.blank_shown sc.source).mp h.source_text)
  have hschedule := trimToNull_of_not_blank (mt (Browser.blank_textField _).mp
    (mt (Browser.blank_shown sc.schedule).mp h.schedule))
  have hid : (trimToNull (Browser.textField (Browser.shown sc.id))).getD sc.id ≠ "" := by
    by_cases hblank : Browser.Blank (Browser.textField (Browser.shown sc.id))
    · rw [trimToNull_of_blank hblank]
      exact h.id
    · rw [trimToNull_of_not_blank hblank]
      exact mt Browser.trim_eq_empty.mp hblank
  have htargets : (resubmitted vaultIDs sc).targets ≠ [] :=
    fun hnil => shownTargets_eq_nil.mp hnil h.targets
  have hworkers : ¬((resubmitted vaultIDs sc).concurrentWorkers < 1 ∨
      (resubmitted vaultIDs sc).concurrentWorkers > 20) := by
    have hrange := h.workers
    rw [resubmitted]
    dsimp only
    split_ifs <;> omega
  refine ⟨(trimToNull (Browser.textField (Browser.shown sc.id))).getD sc.id, ?_⟩
  rw [openSyncDialog_enc, SyncForm.submit, if_pos h.source, hsource, hschedule]
  dsimp only
  rw [if_neg (not_or.mpr ⟨hid, htargets⟩), if_neg hworkers]
  rfl

/-- Every other form of a dialog that opens is turned away. -/
theorem submit_of_not_submits (haddressed : sc.id ∉ unaddressed) (h : ¬Submits vaultIDs sc) : ∃ message,
    (openSyncDialog vaultIDs (normalizeSyncConfig (SyncConfig.codec.enc sc))).submit sc.id =
      .error message := by
  rw [openSyncDialog_enc, SyncForm.submit]
  dsimp only
  rcases hsource : trimToNull (if sc.source ∈ vaultIDs then Browser.shown sc.source else "") with _ | source
  · exact ⟨_, rfl⟩
  rcases hschedule : trimToNull (Browser.textField (Browser.shown sc.schedule)) with _ | schedule
  · exact ⟨_, rfl⟩
  dsimp only
  split_ifs with hempty hworkers
  · exact ⟨_, rfl⟩
  · exact ⟨_, rfl⟩
  refine absurd ⟨haddressed, ?_, ?_, ?_, ?_, ?_, ?_⟩ h
  · intro hid
    refine (not_or.mp hempty).1 ?_
    rw [hid]
    rfl
  · by_contra hunknown
    rw [if_neg hunknown] at hsource
    cases hsource
  · intro hblank
    have hshown : Browser.Blank (if sc.source ∈ vaultIDs then Browser.shown sc.source else "") := by
      split_ifs
      · exact (Browser.blank_shown _).mpr hblank
      · exact fun c hc => by cases hc
    rw [trimToNull_of_blank hshown] at hsource
    cases hsource
  · exact not_not.mp (mt shownTargets_eq_nil.mpr (not_or.mp hempty).2)
  · intro hblank
    rw [trimToNull_of_blank ((Browser.blank_textField _).mpr ((Browser.blank_shown _).mpr hblank))]
      at hschedule
    cases hschedule
  · rw [resubmitted] at hworkers
    dsimp only at hworkers
    split_ifs at hworkers <;> omega

/-- What a page shows, it shows as it is. -/
theorem shown_of_mem_map {v : String} {vaultIDs : List String} (h : v ∈ vaultIDs.map Browser.shown) :
    Browser.shown v = v := by
  obtain ⟨id, -, rfl⟩ := List.mem_map.mp h
  exact Browser.shown_eq_self fun c hc => Browser.mem_shown hc

/-- The targets come back as they were: known vaults that the page shows as they are, in its order. -/
theorem shownTargets_eq_self {targets : List String} : shownTargets vaultIDs targets = targets ↔
    (∀ t ∈ targets, t ∈ vaultIDs) ∧
      targets = (vaultIDs.map Browser.shown).filter fun v => v ∈ targets := by
  have hmem (hshown : ∀ t ∈ targets, Browser.shown t = t) (v : String) :
      v ∈ (vaultIDs.filter fun id => id ∈ targets).map Browser.shown ↔ v ∈ vaultIDs ∧ v ∈ targets := by
    simp only [List.mem_map, List.mem_filter, decide_eq_true_eq]
    constructor
    · rintro ⟨w, ⟨hvault, ht⟩, rfl⟩
      rw [hshown w ht]
      exact ⟨hvault, ht⟩
    · rintro ⟨hvault, ht⟩
      exact ⟨v, ⟨hvault, ht⟩, hshown v ht⟩
  constructor
  · intro h
    have hall : ∀ t ∈ targets, t ∈ vaultIDs.map Browser.shown ∧
        t ∈ (vaultIDs.filter fun id => id ∈ targets).map Browser.shown := by
      intro t ht
      rw [← h, shownTargets, List.mem_filter, decide_eq_true_eq] at ht
      exact ht
    have hshown : ∀ t ∈ targets, Browser.shown t = t := fun t ht => shown_of_mem_map (hall t ht).1
    have hknown : ∀ t ∈ targets, t ∈ vaultIDs :=
      fun t ht => ((hmem hshown t).mp (hall t ht).2).1
    refine ⟨hknown, ?_⟩
    conv_lhs => rw [← h, shownTargets]
    refine List.filter_congr fun v _ => decide_eq_decide.mpr ?_
    rw [hmem hshown]
    exact and_iff_right_of_imp (hknown v)
  · rintro ⟨hknown, horder⟩
    have hshown : ∀ t ∈ targets, Browser.shown t = t := by
      intro t ht
      rw [horder] at ht
      exact shown_of_mem_map (List.mem_of_mem_filter ht)
    conv_rhs => rw [horder]
    refine List.filter_congr fun v _ => decide_eq_decide.mpr ?_
    rw [hmem hshown]
    exact and_iff_right_of_imp (hknown v)

/-- What the dialog leaves as it is. -/
structure Untouched (vaultIDs : List String) (sc : SyncConfig) : Prop where
  filter : sc.filter = {}
  transforms : sc.transforms = []
  retryPolicy : sc.retryPolicy = {}
  enabled : sc.enabled ≠ none
  syncType : sc.syncType = "unidirectional" ∨ sc.syncType = "bidirectional"
  workers : sc.concurrentWorkers ≠ 0
  source : Browser.Tidy sc.source
  schedule : Browser.Tidy sc.schedule ∧ '\n' ∉ sc.schedule.toList
  known : ∀ t ∈ sc.targets, t ∈ vaultIDs
  targets : sc.targets = (vaultIDs.map Browser.shown).filter fun v => v ∈ sc.targets

theorem resubmitted_eq_self : resubmitted vaultIDs sc = sc ↔ Untouched vaultIDs sc := by
  have htype : (if sc.syncType = "bidirectional" then "bidirectional" else "unidirectional") =
      sc.syncType ↔ sc.syncType = "unidirectional" ∨ sc.syncType = "bidirectional" := by
    split_ifs with h
    · simp [h]
    · simp [h, eq_comm]
  have hworkers : (if sc.concurrentWorkers = 0 then 1 else sc.concurrentWorkers) =
      sc.concurrentWorkers ↔ sc.concurrentWorkers ≠ 0 := by
    split_ifs with h
    · simp [h]
    · simp [h]
  have henabled : some sc.isEnabled = sc.enabled ↔ sc.enabled ≠ none := by
    rw [SyncConfig.isEnabled]
    rcases sc.enabled with _ | b
    · simp
    · simp
  constructor
  · intro h
    have hfield {α : Type} (f : SyncConfig → α) : f (resubmitted vaultIDs sc) = f sc := congrArg f h
    obtain ⟨hknown, htargets⟩ := shownTargets_eq_self.mp (hfield SyncConfig.targets)
    exact {
      filter := (hfield SyncConfig.filter).symm
      transforms := (hfield SyncConfig.transforms).symm
      retryPolicy := (hfield SyncConfig.retryPolicy).symm
      enabled := henabled.mp (hfield SyncConfig.enabled)
      syncType := htype.mp (hfield SyncConfig.syncType)
      workers := hworkers.mp (hfield SyncConfig.concurrentWorkers)
      source := Browser.trim_shown_eq_self.mp (hfield SyncConfig.source)
      schedule := Browser.trim_textField_eq_self.mp (hfield SyncConfig.schedule)
      known := hknown
      targets := htargets }
  · rintro ⟨hfilter, htransforms, hretry, henabled', htype', hworkers', hsource, hschedule, hknown,
      htargets⟩
    rw [resubmitted, shownTargets_eq_self.mpr ⟨hknown, htargets⟩, htype.mpr htype',
      hworkers.mpr hworkers', henabled.mpr henabled', Browser.trim_shown_eq_self.mpr hsource,
      Browser.trim_textField_eq_self.mpr hschedule, ← hfilter, ← htransforms, ← hretry]

end Form

end VaultsSyncer
