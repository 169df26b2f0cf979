import VaultsSyncer.Vault.JsonPaths

/-! The JSON output of a tool (`vault/tool_backend.go`), and its list parser beside the one of the HTTP
    client. `parseJSONList` takes the array at the path or fails; `ParseList` goes on to the arrays under
    `data`, `value` and `keys` when it is left without items, and does not ask why:

        nothing at the path          the usual arrays
        an empty array at the path   the usual arrays as well

    So the two agree on an array exactly if it has items, or the usual one has no names
    (`lists_agree_iff`). -/

namespace VaultsSyncer

open GoStd

/-- The parts of a path, one after the other. -/
def jsonNavigateParts : Value → List String → Except GoError Value
  | current, [] => .ok current
  | current, part :: parts =>
    if part = "" then jsonNavigateParts current parts
    else match current with
      | .object v =>
        match v.lookup part with
        | some val => jsonNavigateParts val parts
        | none => .error (.new ("key " ++ goQuote part ++ " not found"))
      | v => .error (.new ("cannot navigate key " ++ goQuote part ++ " through " ++ typeName v))

/-- Follows a dot-separated path through nested maps. -/
def jsonNavigate (root : Value) (path : String) : Except GoError Value :=
  if path = "" then .ok root else jsonNavigateParts root (split path '.')

/-- The name in one item of a list. -/
def listItemName (nameField : String) : Value → Option String
  | .string v => some v
  | .object v =>
    match v.lookup nameField with
    | some (.string name) => some name
    | _ => none
  | _ => none

section

variable (jsonErr : String → GoError)

/-- Navigates to a JSON path, then extracts the name field from each item. -/
def parseJSONList (data path nameField : String) : Except GoError (List String) :=
  match unmarshal data.toList with
  | none => .error (.wrap "failed to parse JSON list output: " (jsonErr data))
  | some root =>
    match jsonNavigate root path with
    | .error err => .error (.wrap ("failed to navigate JSON path " ++ goQuote path ++ ": ") err)
    | .ok (.array items) =>
      .ok (items.filterMap (listItemName (if nameField = "" then "name" else nameField)))
    | .ok _ => .error (.new ("JSON path " ++ goQuote path ++ " does not point to an array"))

end

/-! ### Paths and names -/

theorem jsonNavigateParts_nil (v : Value) : jsonNavigateParts v [] = .ok v := by rw [jsonNavigateParts]

theorem jsonNavigateParts_cons (v : Value) (part : String) (parts : List String) :
    jsonNavigateParts v (part :: parts) =
      jsonNavigateParts v [part] >>= fun w => jsonNavigateParts w parts := by
  rw [jsonNavigateParts.eq_def, jsonNavigateParts.eq_def v [part]]
  dsimp only
  split_ifs
  · rfl
  · cases v with
    | object m =>
      dsimp only
      cases m.lookup part <;> rfl
    | _ => rfl

theorem jsonNavigateParts_one (v : Value) (part : String) :
    (jsonNavigateParts v [part]).toOption = if part = "" then some v else child v part := by
  rw [jsonNavigateParts.eq_def]
  dsimp only
  split_ifs
  · rfl
  · cases v with
    | object m =>
      rcases hlookup : m.lookup part with _ | w
      · simp [child, hlookup, Except.toOption]
      · simp [child, hlookup, jsonNavigateParts_nil, Except.toOption]
    | _ => rfl

theorem jsonNavigate_toOption (root : Value) (path : String) :
    (jsonNavigate root path).toOption = valueAt root path := by
  rw [jsonNavigate]
  split_ifs with hempty
  · subst hempty
    rfl
  · exact walk_toOption jsonNavigateParts_nil jsonNavigateParts_cons jsonNavigateParts_one _ _

theorem jsonNavigate_eq_ok {root : Value} {path : String} {v : Value} :
    jsonNavigate root path = .ok v ↔ valueAt root path = some v := by
  rw [← jsonNavigate_toOption, toOption_eq_some]

/-- The empty path is no case of its own: its one part is skipped. -/
theorem jsonNavigate_eq (root : Value) (path : String) :
    jsonNavigate root path = jsonNavigateParts root (split path '.') := by
  rw [jsonNavigate]
  split_ifs with hempty
  · subst hempty
    rfl
  · rfl

theorem jsonNavigate_dot (root : Value) (p q : String) :
    jsonNavigate root (p ++ "." ++ q) = jsonNavigate root p >>= fun v => jsonNavigate v q := by
  rw [jsonNavigate_eq, split_dot, walk_append jsonNavigateParts_nil jsonNavigateParts_cons, ← jsonNavigate_eq]
  exact congrArg _ (funext fun v => (jsonNavigate_eq v q).symm)

/-- The client's walk and the tool's fail together or find the same value, and along two paths joined by
    a dot each goes on from where the first leads. -/
theorem walks_agree (data : Value) :
    (∀ path, (JsonPathParser.getValueAtPath data path).toOption = (jsonNavigate data path).toOption) ∧
      ∀ p q,
        (JsonPathParser.getValueAtPath data (p ++ "." ++ q) =
          JsonPathParser.getValueAtPath data p >>= fun v => JsonPathParser.getValueAtPath v q) ∧
        (jsonNavigate data (p ++ "." ++ q) = jsonNavigate data p >>= fun v => jsonNavigate v q) := by
  refine ⟨fun path => ?_, fun p q => ⟨getValueAtPath_dot data p q, jsonNavigate_dot data p q⟩⟩
  rw [getValueAtPath_toOption, jsonNavigate_toOption]

/-- The name an item carries, under a name field that may have been left open. -/
inductive Carries (nameField : String) : Value → String → Prop
  | string (name : String) : Carries nameField (.string name) name
  | field {item : List (String × Value)} {name : String}
      (h : item.lookup (if nameField = "" then "name" else nameField) = some (.string name)) :
      Carries nameField (.object item) name

theorem listItemName_eq_some {nameField : String} {item : Value} {name : String} :
    listItemName (if nameField = "" then "name" else nameField) item = some name ↔
      Carries nameField item name := by
  constructor
  · intro h
    cases item with
    | string v =>
      obtain rfl := Option.some.inj h
      exact .string v
    | object m =>
      rw [listItemName] at h
      split at h
      · rename_i hlookup
        obtain rfl := Option.some.inj h
        exact .field hlookup
      · cases h
    | _ => cases h
  · rintro (_ | h)
    · rfl
    · rw [listItemName, h]

/-- Both parsers take the same names from an item. -/
theorem itemName_eq (p : JsonPathParser) :
    p.itemName = listItemName (if p.nameField = "" then "name" else p.nameField) := by
  funext item
  cases item <;> rfl

theorem mem_itemName {p : JsonPathParser} {items : List Value} {name : String} :
    name ∈ items.filterMap p.itemName ↔ ∃ item ∈ items, Carries p.nameField item name := by
  rw [List.mem_filterMap, itemName_eq]
  simp only [listItemName_eq_some]

/-! ### The two list parsers -/

/-- The first of the usual fields that holds an array. -/
def defaultItems (data : List (String × Value)) : List Value :=
  (["data", "value", "keys"].findSome? (JsonPathParser.arrayField data)).getD []

/-- The items that `ParseList` goes through: the array at the configured path, or the first of the usual
    ones when that leaves it without items. -/
def listedItems (p : JsonPathParser) (data : List (String × Value)) : List Value :=
  let items := match if p.listPath = "" then none else valueAt (.object data) p.listPath with
    | some (.array items) => items
    | _ => []
  if items = [] then defaultItems data else items

section

variable (jsonErr : String → GoError) (p : JsonPathParser) {body : String}
  {data : List (String × Value)} {items : List Value}

theorem parseList_eq (hmap : unmarshalMap body = some data) :
    p.parseList jsonErr body = .ok ((listedItems p data).filterMap p.itemName) := by
  rw [JsonPathParser.parseList, hmap, listedItems]
  dsimp only
  simp only [List.isEmpty_iff]
  by_cases hpath : p.listPath = ""
  · rw [if_neg (not_not_intro hpath), if_pos hpath]
    rfl
  · rw [if_pos hpath, if_neg hpath, ← getValueAtPath_toOption]
    rcases JsonPathParser.getValueAtPath (.object data) p.listPath with err | v
    · rfl
    · cases v <;> rfl

theorem parseJSONList_of_array (hbody : unmarshal body.toList = some (.object data))
    {path : String} (hlist : valueAt (.object data) path = some (.array items)) (nameField : String) :
    parseJSONList jsonErr body path nameField =
      .ok (items.filterMap (listItemName (if nameField = "" then "name" else nameField))) := by
  rw [parseJSONList, hbody]
  dsimp only
  rw [jsonNavigate_eq_ok.mpr hlist]

theorem parseList_of_array (hbody : unmarshal body.toList = some (.object data))
    (hlist : valueAt (.object data) p.listPath = some (.array items)) :
    p.parseList jsonErr body =
      .ok ((if items = [] then defaultItems data else items).filterMap p.itemName) := by
  have hpath : p.listPath ≠ "" := by
    intro hempty
    rw [hempty] at hlist
    cases hlist
  have hmap : unmarshalMap body = some data := by rw [unmarshalMap, hbody]
  have hitems : listedItems p data = if items = [] then defaultItems data else items := by
    rw [listedItems, if_neg hpath, hlist]
  rw [parseList_eq jsonErr p hmap, hitems]

/-- The client's parser returns the names that the tool's parser returns for the same body, path and
    name field, and each is carried by an item of the configured array. -/
structure ListsAgree (body : String) (items : List Value) : Prop where
  same : ∃ names, p.parseList jsonErr body = .ok names ∧
    parseJSONList jsonErr body p.listPath p.nameField = .ok names
  configured : ∀ names, p.parseList jsonErr body = .ok names →
    ∀ name ∈ names, ∃ item ∈ items, Carries p.nameField item name

/-- On an object with an array at the configured path, the two list parsers agree exactly if the array
    has items, or no item of the usual one carries a name. -/
theorem lists_agree_iff (hbody : unmarshal body.toList = some (.object data))
    (hlist : valueAt (.object data) p.listPath = some (.array items)) :
    ListsAgree jsonErr p body items ↔
      ¬(items = [] ∧ ∃ item ∈ defaultItems data, ∃ name, Carries p.nameField item name) := by
  have htool := parseJSONList_of_array jsonErr hbody hlist p.nameField
  have hclient := parseList_of_array jsonErr p hbody hlist
  rw [← itemName_eq] at htool
  constructor
  · rintro hagree ⟨rfl, item, hitem, name, hname⟩
    rw [if_pos rfl] at hclient
    have hmem : name ∈ (defaultItems data).filterMap p.itemName := mem_itemName.mpr ⟨item, hitem, hname⟩
    obtain ⟨_, hnone, -⟩ := hagree.configured _ hclient name hmem
    cases hnone
  · intro hnot
    have hnames : (if items = [] then defaultItems data else items).filterMap p.itemName =
        items.filterMap p.itemName := by
      split_ifs with hempty
      · subst hempty
        rw [List.filterMap_nil, List.eq_nil_iff_forall_not_mem]
        intro name hname
        obtain ⟨item, hitem, hcarries⟩ := mem_itemName.mp hname
        exact hnot ⟨rfl, item, hitem, name, hcarries⟩
      · rfl
    rw [hnames] at hclient
    refine ⟨⟨_, hclient, htool⟩, fun names hok name hname => ?_⟩
    rw [hclient, Except.ok.injEq] at hok
    rw [← hok] at hname
    exact mem_itemName.mp hname

end

/-- Side by side, `data` with an item and the configured `items` with none. -/
def emptyItems : List (String × Value) :=
  [("data", .array [.string "other"]), ("items", .array [])]

theorem unmarshal_emptyItems :
    unmarshal (String.ofList (marshal (.object emptyItems))).toList = some (.object emptyItems) := by
  rw [String.toList_ofList]
  refine unmarshal_marshal ?_ (by decide +kernel)
  simp only [emptyItems, Value.Ordered, Sorted, Value.OrderedMembers, Value.OrderedMember, Value.OrderedElems]
  decide +kernel

theorem lists_agree_data :
    ListsAgree GoError.new { listPath := "data" } (String.ofList (marshal (.object emptyItems)))
      [.string "other"] := by
  refine (lists_agree_iff _ _ unmarshal_emptyItems (valueAt_key (by decide +kernel) _)).mpr ?_
  rintro ⟨hempty, -⟩
  cases hempty

/-- The configured array is empty, and the name of another one is returned. -/
theorem names_of_another_array : ¬∀ (jsonErr : String → GoError) (p : JsonPathParser) (body : String)
    (data : List (String × Value)) (items : List Value), unmarshal body.toList = some (.object data) →
    p.listPath ≠ "" → valueAt (.object data) p.listPath = some (.array items) →
    ListsAgree jsonErr p body items := by
  intro hall
  have hlist : valueAt (.object emptyItems) "items" = some (.array []) :=
    valueAt_key (by decide +kernel) _
  have hagree := hall .new { listPath := "items" } _ _ _ unmarshal_emptyItems (by decide) hlist
  obtain ⟨_, hnone, -⟩ := hagree.configured ["other"]
    (parseList_of_array .new { listPath := "items" } unmarshal_emptyItems hlist) "other" (by simp)
  cases hnone

end VaultsSyncer
