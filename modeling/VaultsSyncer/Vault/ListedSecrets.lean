import VaultsSyncer.Config.Loader
import VaultsSyncer.Vault.GetOverrides
import VaultsSyncer.Vault.ToolOutput

/-! Secrets read from the list of all of them (`getSecretFromList` in `vault/client.go`). The names come from
    the configured list parser, the secret from the objects in the `data` of a second response, by
    `field_names`:

        field_names   response                                 listed   get
        name, value   {"data":[{"name":"a","value":"s"}]}      a        s
        name, value   {"data":[{"name":"a"}]}                  a        <nil>
        title, value  {"data":[{"name":"a","value":"s"}]}      a        an error

    `genuine_iff` says when nothing is made up, `listed_readable_iff` when everything that is listed can be
    read. -/

namespace VaultsSyncer

open GoStd Schemes Schemes.Prog JsonPathParser

/-! ### The objects of a list -/

namespace Client

variable (c : Client)

/-- The field that carries the name of a secret. -/
def nameKey : String := if c.cfg.fieldNames.nameField = "" then "name" else c.cfg.fieldNames.nameField

/-- The field that carries its value. -/
def valueKey : String := if c.cfg.fieldNames.valueField = "" then "value" else c.cfg.fieldNames.valueField

/-- An object that carries the name. -/
def named (name : String) : Value → Option (List (String × Value))
  | .object m =>
    match m.lookup c.nameKey with
    | some (.string itemName) => if itemName = name then some m else none
    | _ => none
  | _ => none

/-- The first object that carries the name. -/
def namedItem (name : String) (items : List Value) : Option (List (String × Value)) :=
  items.findSome? (c.named name)

/-- The value of the first object that carries the name and has a value. -/
def listedValue (name : String) (items : List Value) : Option Value :=
  items.findSome? fun item => (c.named name item).bind fun m => m.lookup c.valueKey

theorem named_eq_some {name : String} {item : Value} {m : List (String × Value)} :
    c.named name item = some m ↔ item = .object m ∧ m.lookup c.nameKey = some (.string name) := by
  cases item with
  | object o =>
    rw [named]
    split
    · rename_i itemName hlookup
      constructor
      · intro h
        split_ifs at h with hname
        obtain rfl := Option.some.inj h
        exact ⟨rfl, hname ▸ hlookup⟩
      · rintro ⟨hobject, hname⟩
        obtain rfl := Value.object.inj hobject
        rw [hlookup, Option.some.injEq, Value.string.injEq] at hname
        rw [if_pos hname]
    · rename_i hnot
      constructor
      · rintro ⟨⟩
      · rintro ⟨hobject, hname⟩
        obtain rfl := Value.object.inj hobject
        exact absurd hname (hnot name)
  | _ => simp [named]

/-- What `getSecretFromList` finds is what the first object with the name has, or nil. -/
theorem findItem_eq (name : String) (items : List Value) : c.findItem name items =
    (c.namedItem name items).map fun m => valueToString ((m.lookup c.valueKey).getD .null) := by
  rw [findItem, namedItem, List.map_findSome?]
  refine congrArg (List.findSome? · items) (funext fun item => ?_)
  cases item with
  | object m =>
    simp only [Function.comp_apply, named, nameKey, valueKey]
    generalize m.lookup (if c.cfg.fieldNames.nameField = "" then "name" else c.cfg.fieldNames.nameField) =
      found
    rcases found with _ | v
    · rfl
    · cases v with
      | string itemName =>
        dsimp only
        by_cases hname : itemName = name
        · rw [if_pos hname, if_pos hname, Option.map_some]
        · rw [if_neg hname, if_neg hname, Option.map_none]
      | _ => rfl
  | _ => rfl

/-- Of the objects with the name, the first is the one with a value if it has one. -/
theorem listedValue_of_namedItem {name : String} {items : List Value} {m : List (String × Value)}
    {v : Value} (hm : c.namedItem name items = some m) (hv : m.lookup c.valueKey = some v) :
    c.listedValue name items = some v := by
  rw [namedItem, List.findSome?_eq_some_iff] at hm
  obtain ⟨before, item, after, rfl, hitem, hbefore⟩ := hm
  rw [listedValue, List.findSome?_eq_some_iff]
  refine ⟨before, item, after, rfl, by rw [hitem, Option.bind_some, hv], fun other hother => ?_⟩
  rw [hbefore other hother, Option.bind_none]

theorem namedItem_eq_none {name : String} {items : List Value} : c.namedItem name items = none ↔
    ¬∃ m, .object m ∈ items ∧ m.lookup c.nameKey = some (.string name) := by
  rw [namedItem, List.findSome?_eq_none_iff]
  constructor
  · rintro h ⟨m, hm, hname⟩
    have hnone := h _ hm
    rw [c.named_eq_some.mpr ⟨rfl, hname⟩] at hnone
    cases hnone
  · intro h item hitem
    by_contra hsome
    obtain ⟨m, hm⟩ := Option.ne_none_iff_exists'.mp hsome
    obtain ⟨rfl, hname⟩ := c.named_eq_some.mp hm
    exact h ⟨m, hitem, hname⟩

end Client

/-- The items of a response to the second request. -/
def itemsIn (body : String) : List Value :=
  ((unmarshalMap body).bind fun data => arrayField data "data").getD []

/-! ### The two requests -/

/-- The listing, and the request that `getSecretFromList` makes after it. -/
def Client.listRequests (c : Client) : List (String × String) :=
  [(c.operationMethod "list", c.operationEndpoint "list" ""), ("GET", trimSuffix c.cfg.endpoint "/")]

theorem Client.mem_listRequests (c : Client) :
    (c.operationMethod "list", c.operationEndpoint "list" "") ∈ c.listRequests ∧
      ("GET", trimSuffix c.cfg.endpoint "/") ∈ c.listRequests :=
  ⟨List.mem_cons_self, List.mem_cons_of_mem _ List.mem_cons_self⟩

section

variable {σ : Type} {c : Client} {net : Network σ} (jsonErr : String → GoError)

/-- `ListSecrets` returns what its parser makes of the body. -/
theorem exec_listSecrets_body {s : σ} {body : String} (h : Responds c net (c.operationMethod "list")
    (c.operationEndpoint "list" "") (c.operationStatusCodes "list") s body) :
    (∀ names, (c.operationParser "list").parseList jsonErr body = .ok names →
      ∃ s', Http.exec net (c.listSecrets jsonErr) s = (.ok names, s')) ∧
    (∀ err, (c.operationParser "list").parseList jsonErr body = .error err →
      ∃ e s', Http.exec net (c.listSecrets jsonErr) s = (.error e, s')) := by
  obtain ⟨s', hexec⟩ := exec_responds h
  rw [Client.listSecrets, hexec]
  constructor
  · intro names hnames
    rw [hnames]
    exact ⟨s', Http.exec_pure net names s'⟩
  · intro err herr
    rw [herr]
    exact ⟨_, s', rfl⟩

/-- After the listing, the second response decides. -/
theorem exec_getSecretFromList_body {s s₁ : σ} {names : List String} (name : String) {body : String}
    (hnames : Http.exec net (c.listSecrets jsonErr) s = (.ok names, s₁))
    (hitems : Responds c net "GET" (trimSuffix c.cfg.endpoint "/") [200] s₁ body) :
    (∀ m, name ∈ names → c.namedItem name (itemsIn body) = some m →
      (Http.exec net (c.getSecretFromList jsonErr name) s).1 =
        .ok ⟨name, utf8 (valueToString ((m.lookup c.valueKey).getD .null))⟩) ∧
    (name ∉ names ∨ c.namedItem name (itemsIn body) = none →
      ∃ e, (Http.exec net (c.getSecretFromList jsonErr name) s).1 = .error e) := by
  rw [Client.getSecretFromList, Http.exec_bind_ok net hnames]
  by_cases hmem : name ∈ names
  · rw [if_neg (not_not.mpr hmem)]
    obtain ⟨s₂, hexec⟩ := exec_responds hitems
    rw [hexec, itemsIn]
    rcases hmap : unmarshalMap body with _ | data
    · refine ⟨fun m _ hm => ?_, fun _ => ⟨_, rfl⟩⟩
      cases hm
    · dsimp only [Option.bind_some]
      rcases hdata : arrayField data "data" with _ | items
      · refine ⟨fun m _ hm => ?_, fun _ => ⟨_, rfl⟩⟩
        cases hm
      · rw [Option.bind_some, Option.getD_some, c.findItem_eq]
        rcases c.namedItem name items with _ | m
        · refine ⟨fun m _ hm => ?_, fun _ => ⟨_, rfl⟩⟩
          cases hm
        · refine ⟨fun m' _ hm => ?_, fun h => ?_⟩
          · obtain rfl := Option.some.inj hm
            rfl
          · rcases h with h | h
            · exact absurd hmem h
            · cases h
  · rw [if_pos hmem]
    exact ⟨fun m hname => absurd hname hmem, fun _ => ⟨_, rfl⟩⟩

end

/-! ### Nothing is made up -/

/-- A result that is not made up: a secret has the value of the first object that carries the name and has
    one, and where the first object that carries the name has none there is an error. -/
structure Client.Genuine (c : Client) (name : String) (items : List Value)
    (result : Except Failure Secret) : Prop where
  taken : ∀ secret, result = .ok secret → ∃ v, c.listedValue name items = some v ∧
    secret = ⟨name, utf8 (valueToString v)⟩
  missing : ∀ m, c.namedItem name items = some m → m.lookup c.valueKey = none → ∃ e, result = .error e

theorem Client.Genuine.of_error {c : Client} {name : String} {items : List Value}
    {result : Except Failure Secret} (h : ∃ e, result = .error e) : c.Genuine name items result := by
  obtain ⟨e, rfl⟩ := h
  exact ⟨(by rintro _ ⟨⟩), fun m _ _ => ⟨e, rfl⟩⟩

section

variable {σ : Type} {c : Client} {net : Network σ} {jsonErr : String → GoError}

/-- The listing is answered with one body, and the request that follows it with another. -/
structure TwoBodies (c : Client) (net : Network σ) (jsonErr : String → GoError) (s : σ)
    (listing items : String) : Prop where
  listing : Responds c net (c.operationMethod "list") (c.operationEndpoint "list" "")
    (c.operationStatusCodes "list") s listing
  items : ∀ names s₁, Http.exec net (c.listSecrets jsonErr) s = (.ok names, s₁) →
    Responds c net "GET" (trimSuffix c.cfg.endpoint "/") [200] s₁ items

/-- The name is listed, and the first object that carries it has no value. -/
def Client.ListedWithoutValue (c : Client) (jsonErr : String → GoError) (name listing items : String) :
    Prop :=
  ∃ names m, (c.operationParser "list").parseList jsonErr listing = .ok names ∧ name ∈ names ∧
    c.namedItem name (itemsIn items) = some m ∧ m.lookup c.valueKey = none

/-- A secret is genuine exactly if its name is not listed, or the first object that carries it has a
    value. -/
theorem genuine_iff {s : σ} {listing items : String} (h : TwoBodies c net jsonErr s listing items)
    (name : String) : c.Genuine name (itemsIn items)
      (Http.exec net (c.getSecretFromList jsonErr name) s).1 ↔
        ¬c.ListedWithoutValue jsonErr name listing items := by
  obtain ⟨hok, herror⟩ := exec_listSecrets_body jsonErr h.listing
  rcases hparse : (c.operationParser "list").parseList jsonErr listing with err | names
  · obtain ⟨e, s', hlist⟩ := herror err hparse
    have hfails : (Http.exec net (c.getSecretFromList jsonErr name) s).1 = .error e := by
      rw [Client.getSecretFromList, Http.exec_bind, hlist]
    refine iff_of_true (.of_error ⟨e, hfails⟩) ?_
    rintro ⟨names, m, hnames, -⟩
    rw [hparse] at hnames
    cases hnames
  obtain ⟨s₁, hlist⟩ := hok names hparse
  obtain ⟨hfound, hfails⟩ := exec_getSecretFromList_body jsonErr name hlist (h.items names s₁ hlist)
  by_cases hlisted : name ∈ names ∧ c.namedItem name (itemsIn items) ≠ none
  · obtain ⟨hmem, hsome⟩ := hlisted
    obtain ⟨m, hm⟩ := Option.ne_none_iff_exists'.mp hsome
    have hsecret := hfound m hmem hm
    constructor
    · rintro hgenuine ⟨names', m', -, -, hm', hnone⟩
      obtain ⟨e, he⟩ := hgenuine.missing m' hm' hnone
      rw [hsecret] at he
      cases he
    · intro hnot
      rcases hvalue : m.lookup c.valueKey with _ | v
      · exact absurd ⟨names, m, hparse, hmem, hm, hvalue⟩ hnot
      · refine ⟨fun secret hok => ⟨v, c.listedValue_of_namedItem hm hvalue, ?_⟩, fun m' hm' hnone => ?_⟩
        · rw [hsecret, hvalue] at hok
          exact (Except.ok.inj hok).symm
        · rw [hm, Option.some.injEq] at hm'
          rw [← hm', hvalue] at hnone
          cases hnone
  · refine iff_of_true (.of_error (hfails ?_)) ?_
    · by_cases hmem : name ∈ names
      · exact .inr (not_not.mp fun hne => hlisted ⟨hmem, hne⟩)
      · exact .inl hmem
    · rintro ⟨names', m, hnames, hmem, hm, -⟩
      rw [hparse, Except.ok.injEq] at hnames
      rw [← hnames] at hmem
      exact hlisted ⟨hmem, by simp [hm]⟩

end

theorem newClient_fieldNames (v : VaultConfig) : (newClient v).cfg.fieldNames = v.fieldNames := by
  obtain ⟨ops, hops⟩ := applyDefaultOperations_eq v.populateDefaults
  rw [newClient, hops]
  rfl

theorem newClient_readsList {v : VaultConfig}
    (h : toLower v.getVaultType = "vaultwarden" ∨ toLower v.getVaultType = "bitwarden") :
    (newClient v).ReadsList := by
  have htype : (newClient v).cfg.getVaultType = v.populateDefaults.getVaultType := by
    obtain ⟨ops, hops⟩ := applyDefaultOperations_eq v.populateDefaults
    rw [newClient, hops]
    rfl
  rw [Client.ReadsList, htype, VaultConfig.getVaultType_populateDefaults]
  exact h

/-- The list operation of a vault that does not override it. -/
theorem operationConfig_list {v : VaultConfig} (hlist : v.operationsOverride "list" = none)
    (h : toLower v.getVaultType = "vaultwarden" ∨ toLower v.getVaultType = "bitwarden") :
    (newClient v).operationConfig "list" =
      some { method := "GET", responseParser := some { listPath := "data", nameField := "name" } } := by
  rw [operationConfig_of_default hlist]
  rcases h with htype | htype
  · simp only [operationDefaults, htype]
    rfl
  · simp only [operationDefaults, htype]
    rfl

/-- A vault whose secrets are read from the list of them, with this name field. -/
def itemsVault (nameField : String) : VaultConfig where
  id := "vaultwarden"
  name := "Vaultwarden"
  type := "vaultwarden"
  endpoint := "https://vaultwarden.internal"
  method := "POST"
  auth := some { method := "bearer" }
  fieldNames := ⟨nameField, "value"⟩

/-- The list of these items. -/
def listOf (items : List (List (String × Value))) : List (String × Value) :=
  [("data", .array (items.map .object))]

def itemsBody (items : List (List (String × Value))) : String :=
  String.ofList (marshal (.object (listOf items)))

/-- A secret without a value, and two with one. -/
def bareItem : List (String × Value) := [("name", .string "a")]

def fullItem : List (String × Value) := [("name", .string "a"), ("value", .string "s")]

def otherItem : List (String × Value) := [("name", .string "b"), ("value", .string "t")]

theorem unmarshalMap_bareItem : unmarshalMap (itemsBody [bareItem]) = some (listOf [bareItem]) := by
  refine unmarshalMap_marshal ?_ (by decide +kernel)
  simp only [listOf, List.map_cons, List.map_nil, bareItem, Value.Ordered, Sorted, Value.OrderedMembers,
    Value.OrderedMember, Value.OrderedElems]
  decide +kernel

theorem unmarshalMap_twoItems :
    unmarshalMap (itemsBody [otherItem, fullItem]) = some (listOf [otherItem, fullItem]) := by
  refine unmarshalMap_marshal ?_ (by decide +kernel)
  simp only [listOf, List.map_cons, List.map_nil, otherItem, fullItem, Value.Ordered, Sorted,
    Value.OrderedMembers, Value.OrderedMember, Value.OrderedElems]
  decide +kernel

theorem toLower_itemsVault {nameField : String} :
    toLower (itemsVault nameField).getVaultType = "vaultwarden" := by
  have hlower : toLower "vaultwarden" = "vaultwarden" := by decide +kernel
  exact hlower

theorem list_itemsVault (nameField : String) : (newClient (itemsVault nameField)).operationConfig "list" =
    some { method := "GET", responseParser := some { listPath := "data", nameField := "name" } } :=
  operationConfig_list rfl (.inl toLower_itemsVault)

theorem status_itemsVault (nameField : String) :
    (newClient (itemsVault nameField)).operationStatusCodes "list" = [200] := by
  rw [Client.operationStatusCodes, list_itemsVault]
  rfl

theorem parser_itemsVault (nameField : String) :
    (newClient (itemsVault nameField)).operationParser "list" =
      { listPath := "data", nameField := "name" } := by
  rw [Client.operationParser, list_itemsVault]
  rfl

theorem listedItems_listOf (p : JsonPathParser) (items : List (List (String × Value))) :
    listedItems { p with listPath := "data" } (listOf items) = items.map .object := by
  have hvalue : valueAt (.object (listOf items)) "data" = some (.array (items.map .object)) :=
    valueAt_key (by decide +kernel) _
  rw [listedItems, if_neg (show ¬"data" = "" by decide), hvalue]
  cases items <;> rfl

theorem itemsIn_itemsBody {items : List (List (String × Value))}
    (h : unmarshalMap (itemsBody items) = some (listOf items)) :
    itemsIn (itemsBody items) = items.map .object := by
  rw [itemsIn, h]
  rfl

theorem auth_itemsVault {nameField : String} : (newClient (itemsVault nameField)).cfg.auth ≠ none := by
  rw [newClient_auth]
  exact Option.some_ne_none _

/-- Both requests are answered with this body. -/
theorem twoBodies_answering (jsonErr : String → GoError) (nameField body : String) :
    TwoBodies (newClient (itemsVault nameField)) (answering body) jsonErr () body body where
  listing := (replies_answering _ body).responds rfl auth_itemsVault (by rw [status_itemsVault]; rfl)
    (Client.mem_listRequests _).1 ()
  items _ _ _ := (replies_answering _ body).responds rfl auth_itemsVault rfl
    (Client.mem_listRequests _).2 ()

theorem nameKey_itemsVault {nameField : String} (h : nameField ≠ "") :
    (newClient (itemsVault nameField)).nameKey = nameField := by
  rw [Client.nameKey, newClient_fieldNames]
  exact if_neg h

theorem valueKey_itemsVault (nameField : String) :
    (newClient (itemsVault nameField)).valueKey = "value" := by
  rw [Client.valueKey, newClient_fieldNames]
  rfl

theorem namedItem_twoItems :
    (newClient (itemsVault "name")).namedItem "a" (itemsIn (itemsBody [otherItem, fullItem])) =
      some fullItem := by
  rw [itemsIn_itemsBody unmarshalMap_twoItems]
  unfold Client.namedItem Client.named
  rw [nameKey_itemsVault (by decide)]
  rfl

/-- The second of two items is read as it is. -/
theorem genuine_full :
    (newClient (itemsVault "name")).Genuine "a" (itemsIn (itemsBody [otherItem, fullItem]))
      (Http.exec (answering (itemsBody [otherItem, fullItem]))
        ((newClient (itemsVault "name")).getSecretFromList GoError.new "a") ()).1 := by
  refine (genuine_iff (twoBodies_answering .new "name" (itemsBody [otherItem, fullItem])) "a").mpr ?_
  rintro ⟨names, m, -, -, hm, hnone⟩
  obtain rfl := Option.some.inj (namedItem_twoItems.symm.trans hm)
  rw [valueKey_itemsVault] at hnone
  exact absurd hnone (by decide +kernel)

/-- An item without a value is read as `<nil>`. -/
theorem nil_returned : ¬∀ (jsonErr : String → GoError) (v : VaultConfig),
    (toLower v.getVaultType = "vaultwarden" ∨ toLower v.getVaultType = "bitwarden") →
    ∀ (net : Network Unit) (name listing items : String),
    TwoBodies (newClient v) net jsonErr () listing items →
    (newClient v).Genuine name (itemsIn items)
      (Http.exec net ((newClient v).getSecretFromList jsonErr name) ()).1 := by
  intro hall
  have hbodies := twoBodies_answering .new "name" (itemsBody [bareItem])
  have hgenuine := hall .new (itemsVault "name") (.inl toLower_itemsVault) _ "a" _ _ hbodies
  have hm : (newClient (itemsVault "name")).namedItem "a" (itemsIn (itemsBody [bareItem])) =
      some bareItem := by
    rw [itemsIn_itemsBody unmarshalMap_bareItem, List.map_singleton, Client.namedItem,
      List.findSome?_singleton, Client.named_eq_some, nameKey_itemsVault (by decide)]
    exact ⟨rfl, rfl⟩
  have hvalue : bareItem.lookup (newClient (itemsVault "name")).valueKey = none := by
    rw [valueKey_itemsVault]
    rfl
  have hnames := parseList_eq .new ((newClient (itemsVault "name")).operationParser "list")
    unmarshalMap_bareItem
  rw [parser_itemsVault, listedItems_listOf { nameField := "name" }] at hnames
  obtain ⟨s₁, hlist⟩ := (exec_listSecrets_body .new hbodies.listing).1 _
    (by rw [parser_itemsVault]; exact hnames)
  have hread := (exec_getSecretFromList_body .new "a" hlist (hbodies.items _ s₁ hlist)).1 bareItem
    (by decide +kernel) hm
  obtain ⟨e, herror⟩ := hgenuine.missing bareItem hm hvalue
  rw [hread] at herror
  cases herror

/-! ### Everything that is listed can be read -/

section

variable {σ : Type} {net : Network σ} {resp : Response} {c : Client} {jsonErr : String → GoError}

/-- A response with a status that is not allowed is an error. -/
theorem Replies.rejected {requests : List (String × String)} (h : Replies net requests resp)
    (hauth : c.cfg.auth ≠ none) {allowed : List ℤ}
    (hstatus : Client.isSuccessStatus resp.statusCode allowed = false) {method url : String}
    (hmem : (method, url) ∈ requests) (s : σ) :
    ∃ e s', ∀ {α : Type} (failed : String) (k : String → Http α), Http.exec net (do
      let req ← c.buildRequest method url none
      let resp ← Client.send req failed allowed
      let body ← Client.readAll resp
      k body) s = (.error e, s') := by
  obtain ⟨req, s', hbuild, hdo⟩ := h.build hauth hmem s
  refine ⟨.error (.new ("vault returned status " ++ toString resp.statusCode ++ ": " ++ resp.body)),
    (net (.do req) s').2, fun failed k => ?_⟩
  rw [Http.exec_bind_ok net hbuild, Http.exec_bind, Client.send, Http.exec_bind, Http.exec_clientDo,
    hdo]
  simp only [hstatus, Bool.false_eq_true, if_false]
  rfl

/-- What is listed when every request is answered with `resp`. -/
theorem Replies.exec_listSecrets_ok (h : Replies net c.listRequests resp) (hread : resp.readError = none)
    (hauth : c.cfg.auth ≠ none) {s s' : σ} {names : List String}
    (hexec : Http.exec net (c.listSecrets jsonErr) s = (.ok names, s')) :
    Client.isSuccessStatus resp.statusCode (c.operationStatusCodes "list") = true ∧
      ∃ data, unmarshalMap resp.body = some data ∧
        names = (listedItems (c.operationParser "list") data).filterMap (c.operationParser "list").itemName := by
  rcases hstatus : Client.isSuccessStatus resp.statusCode (c.operationStatusCodes "list") with _ | _
  · obtain ⟨e, s'', herror⟩ := h.rejected hauth hstatus c.mem_listRequests.1 s
    rw [Client.listSecrets, herror] at hexec
    cases hexec
  · refine ⟨rfl, ?_⟩
    obtain ⟨hok, herror⟩ :=
      exec_listSecrets_body jsonErr (h.responds hread hauth hstatus c.mem_listRequests.1 s)
    rcases hmap : unmarshalMap resp.body with _ | data
    · obtain ⟨e, s'', hlist⟩ := herror _ (by rw [parseList, hmap])
      rw [hlist] at hexec
      cases hexec
    · obtain ⟨s'', hlist⟩ := hok _ (parseList_eq jsonErr _ hmap)
      rw [hlist] at hexec
      cases hexec
      exact ⟨data, rfl, rfl⟩

/-- Every name that is listed is that of a secret that can be read. -/
def Client.ReadsListed (c : Client) (jsonErr : String → GoError) (net : Network σ) (s : σ) : Prop :=
  ∀ names s', Http.exec net (c.listSecrets jsonErr) s = (.ok names, s') →
    ∀ name ∈ names, ∃ secret s'', Http.exec net (c.getSecret jsonErr name) s' = (.ok secret, s'')

/-- If the response is one that the listing accepts, its status is 200, and every name that a listed item
    carries is in the name field of an object in `data`. -/
def Client.Covers (c : Client) (nameField : String) (resp : Response) : Prop :=
  Client.isSuccessStatus resp.statusCode (c.operationStatusCodes "list") = true →
    ∀ data, unmarshalMap resp.body = some data →
      ∀ item ∈ listedItems (c.operationParser "list") data, ∀ name,
        Carries (c.operationParser "list").nameField item name → resp.statusCode = 200 ∧
          ∃ m, .object m ∈ (arrayField data "data").getD [] ∧ m.lookup nameField = some (.string name)

/-- What is listed from a body that is accepted, wherever the server is. -/
theorem Replies.exec_listSecrets_of_map (h : Replies net c.listRequests resp)
    (hread : resp.readError = none) (hauth : c.cfg.auth ≠ none)
    (hstatus : Client.isSuccessStatus resp.statusCode (c.operationStatusCodes "list") = true)
    {data : List (String × Value)} (hmap : unmarshalMap resp.body = some data) (s : σ) :
    ∃ s', Http.exec net (c.listSecrets jsonErr) s = (.ok ((listedItems (c.operationParser "list")
      data).filterMap (c.operationParser "list").itemName), s') :=
  (exec_listSecrets_body jsonErr (h.responds hread hauth hstatus c.mem_listRequests.1 s)).1 _
    (parseList_eq jsonErr _ hmap)

/-- A name that is listed can be read exactly if the status is 200 and an object in `data` carries it. -/
theorem Replies.reads_iff (h : Replies net c.listRequests resp) (hread : resp.readError = none)
    (hauth : c.cfg.auth ≠ none) {data : List (String × Value)} (hmap : unmarshalMap resp.body = some data)
    {names : List String} {s s₁ : σ} (hnames : Http.exec net (c.listSecrets jsonErr) s = (.ok names, s₁))
    {name : String} (hmem : name ∈ names) :
    (∃ secret s', Http.exec net (c.getSecretFromList jsonErr name) s = (.ok secret, s')) ↔
      resp.statusCode = 200 ∧ ∃ m, .object m ∈ (arrayField data "data").getD [] ∧
        m.lookup c.nameKey = some (.string name) := by
  have hitems : itemsIn resp.body = (arrayField data "data").getD [] := by
    rw [itemsIn, hmap, Option.bind_some]
  rcases hok : Client.isSuccessStatus resp.statusCode [200] with _ | _
  · obtain ⟨e, s', herror⟩ := h.rejected hauth hok c.mem_listRequests.2 s₁
    refine iff_of_false ?_ fun hstatus => ?_
    · rintro ⟨secret, s'', hsecret⟩
      rw [Client.getSecretFromList, Http.exec_bind_ok net hnames, if_neg (not_not.mpr hmem), herror]
        at hsecret
      cases hsecret
    · rw [hstatus.1] at hok
      cases hok
  have hstatus : resp.statusCode = 200 := by simpa [Client.isSuccessStatus] using hok
  obtain ⟨hfound, hfails⟩ := exec_getSecretFromList_body jsonErr name hnames
    (h.responds hread hauth hok c.mem_listRequests.2 s₁)
  rw [and_iff_right hstatus, ← hitems]
  constructor
  · rintro ⟨secret, s', hsecret⟩
    by_contra hnone
    rw [← c.namedItem_eq_none] at hnone
    obtain ⟨e, herror⟩ := hfails (.inr hnone)
    rw [hsecret] at herror
    cases herror
  · intro hobject
    obtain ⟨m, hm⟩ : ∃ m, c.namedItem name (itemsIn resp.body) = some m := by
      rw [← Option.ne_none_iff_exists', ne_eq, c.namedItem_eq_none, not_not]
      exact hobject
    exact ⟨_, _, Prod.ext (hfound m hmem hm) rfl⟩

/-- Every name that is listed can be read exactly if the names of the listed items are covered. -/
theorem readsListed_iff (hanswers : Replies net c.listRequests resp) (hread : resp.readError = none)
    (hauth : c.cfg.auth ≠ none) (hlist : c.ReadsList) (s : σ) :
    c.ReadsListed jsonErr net s ↔ c.Covers c.nameKey resp := by
  constructor
  · intro hreads hstatus data hmap item hitem name hname
    obtain ⟨s₁, hnames⟩ := hanswers.exec_listSecrets_of_map hread hauth hstatus hmap s
    have hmem := mem_itemName.mpr ⟨item, hitem, hname⟩
    have hsecret := hreads _ s₁ hnames name hmem
    obtain ⟨s₂, hnames'⟩ := hanswers.exec_listSecrets_of_map hread hauth hstatus hmap s₁
    rw [Client.getSecret_fromList hlist] at hsecret
    exact (hanswers.reads_iff hread hauth hmap hnames' hmem).mp hsecret
  · intro hcovers names s₁ hnames name hmem
    obtain ⟨hstatus, data, hmap, rfl⟩ := hanswers.exec_listSecrets_ok hread hauth hnames
    obtain ⟨item, hitem, hname⟩ := mem_itemName.mp hmem
    obtain ⟨s₂, hnames'⟩ := hanswers.exec_listSecrets_of_map hread hauth hstatus hmap s₁
    rw [Client.getSecret_fromList hlist]
    exact (hanswers.reads_iff hread hauth hmap hnames' hmem).mpr
      (hcovers hstatus data hmap item hitem name hname)

end

/-- In a configuration that is accepted, a vaultwarden or bitwarden vault can read what it lists exactly if
    every name of a listed item is also in the configured name field of an object in `data`. -/
theorem listed_readable_iff {cfg : Config} (hvalid : cfg.validate = .ok ()) {v : VaultConfig}
    (hv : v ∈ cfg.vaults)
    (htype : toLower v.getVaultType = "vaultwarden" ∨ toLower v.getVaultType = "bitwarden")
    {σ : Type} {net : Network σ} {resp : Response}
    (hanswers : Replies net (newClient v).listRequests resp) (hread : resp.readError = none)
    (jsonErr : String → GoError) (s : σ) :
    (newClient v).ReadsListed jsonErr net s ↔ (newClient v).Covers v.fieldNames.nameField resp := by
  have htool : toLower v.type ≠ "tool" := by
    intro htool
    have hne : v.type ≠ "" := by
      intro hempty
      rw [hempty] at htool
      exact absurd htool (by decide +kernel)
    rw [VaultConfig.getVaultType, if_pos hne, htool] at htype
    exact absurd htype (by decide)
  obtain ⟨-, hname, -, hauth⟩ := valid_http (valid_of_validate hvalid hv) htool
  have hkey : (newClient v).nameKey = v.fieldNames.nameField := by
    rw [Client.nameKey, newClient_fieldNames, if_neg hname]
  rw [← hkey]
  refine readsListed_iff hanswers hread ?_ (newClient_readsList htype) s
  rw [newClient_auth]
  exact hauth

def itemsConfig (nameField : String) : Config where
  vaults := [itemsVault nameField]

/-- What is listed from two items with a name and a value. -/
theorem listed_twoItems (nameField : String) :
    listedItems ((newClient (itemsVault nameField)).operationParser "list")
      (listOf [otherItem, fullItem]) = [.object otherItem, .object fullItem] := by
  rw [parser_itemsVault]
  exact listedItems_listOf { nameField := "name" } [otherItem, fullItem]

/-- Where the name field is the one that is listed, both items can be read. -/
theorem listed_readable_full :
    (newClient (itemsVault "name")).ReadsListed GoError.new
      (answering (itemsBody [otherItem, fullItem])) () := by
  have hvalid : (itemsConfig "name").validate = .ok () := rfl
  refine (listed_readable_iff hvalid (List.mem_singleton_self _) (.inl toLower_itemsVault)
    (replies_answering _ (itemsBody [otherItem, fullItem])) rfl .new ()).mpr ?_
  intro _ data hdata item hitem name hname
  obtain rfl := Option.some.inj (unmarshalMap_twoItems.symm.trans hdata)
  rw [listed_twoItems] at hitem
  rw [parser_itemsVault] at hname
  cases hname with
  | string => simp at hitem
  | @field m _ hlookup => exact ⟨rfl, m, hitem, hlookup⟩

/-- Where it is another one, the items are listed and cannot be read. -/
theorem listed_unreadable : ¬∀ (cfg : Config), cfg.validate = .ok () → ∀ v ∈ cfg.vaults,
    (toLower v.getVaultType = "vaultwarden" ∨ toLower v.getVaultType = "bitwarden") →
    ∀ (net : Network Unit) (resp : Response), Replies net (newClient v).listRequests resp →
    resp.readError = none →
    ∀ (jsonErr : String → GoError), (newClient v).ReadsListed jsonErr net () := by
  intro hall
  have hanswers := replies_answering (newClient (itemsVault "title")).listRequests
    (itemsBody [otherItem, fullItem])
  have hreads := hall (itemsConfig "title") rfl _ (List.mem_singleton_self _) (.inl toLower_itemsVault) _ _
    hanswers rfl .new
  have hlist : (newClient (itemsVault "title")).ReadsList := newClient_readsList (.inl toLower_itemsVault)
  have hcovers := (readsListed_iff hanswers rfl auth_itemsVault hlist ()).mp hreads
  have hname : Carries "name" (.object fullItem) "a" := .field rfl
  obtain ⟨-, m, hm, htitle⟩ := hcovers (by rw [status_itemsVault]; rfl) _ unmarshalMap_twoItems
    (.object fullItem) (by rw [listed_twoItems]; exact List.mem_cons_of_mem _ List.mem_cons_self) "a"
    (by rw [parser_itemsVault]; exact hname)
  rw [nameKey_itemsVault (by decide)] at htitle
  have hitems : m = otherItem ∨ m = fullItem := by
    simpa [arrayField, listOf] using hm
  rcases hitems with rfl | rfl <;> cases htitle

end VaultsSyncer
