import VaultsSyncer.Vault.JsonPaths
import VaultsSyncer.Vault.WriteMethod

/-! What `GetSecret` takes from a response when the get operation is overridden with a path and a value
    path. `ParseGetValue` looks the value path up from the root, whatever the path says, and takes one of
    the usual fields when there is nothing:

        {path: "data.data", value_path: "value"}      data.data.value    what is returned
        {"data": {"data": {"value": "s"}}}            s                  {"data":{"value":"s"}}

    `override_selects_iff` says when the value at the path is returned all the same. -/

namespace VaultsSyncer

open GoStd Schemes Schemes.Prog JsonPathParser

/-! ### The parser of an override -/

/-- Defaults leave the parser of an operation that has one. -/
theorem operationParser_newClient {cfg : VaultConfig} {op : String} {p : ResponseParserConfig}
    (h : (cfg.operationsOverride op).bind OperationConfig.responseParser = some p) :
    (newClient cfg).operationParser op = newParserFromConfig (some p) := by
  obtain ⟨current, hcurrent, hparser⟩ := Option.bind_eq_some_iff.mp h
  have hpopulated : cfg.populateDefaults.operationsOverride op = some current := hcurrent
  obtain ⟨merged, hmerged, hkeeps⟩ := keeps_applyDefaultOperations hpopulated
  rw [Client.operationParser, operationConfig_newClient, hmerged, Option.bind_some,
    hkeeps.responseParser (by simp [hparser]), hparser]

/-- The string form of what a path selects. -/
def textAt (data : Value) (path : String) : Option String := (valueAt data path).map valueToString

section

variable (jsonErr : String → GoError)

/-- A configured value path is looked up from the root; the usual fields come after it. -/
theorem parseGetValue_override {p : ResponseParserConfig} (hvalue : p.valuePath ≠ "") {body : String}
    {data : List (String × Value)} (hbody : unmarshal body.toList = some (.object data)) :
    (∃ text, (newParserFromConfig (some p)).parseGetValue jsonErr body = .ok text ∧
      ((valueAt (.object data) p.valuePath).or (defaultField data)).map valueToString = some text) ∨
    (∃ err, (newParserFromConfig (some p)).parseGetValue jsonErr body = .error err ∧
      (valueAt (.object data) p.valuePath).or (defaultField data) = none) := by
  have hmap : unmarshalMap body = some data := by rw [unmarshalMap, hbody]
  rw [parseGetValue, hmap]
  simp only [newParserFromConfig, ne_eq, hvalue, not_false_eq_true, ↓reduceIte, not_true_eq_false,
    Option.or_none, getValueAtPath_toOption]
  rcases (valueAt (.object data) p.valuePath).or (defaultField data) with _ | w
  · exact .inr ⟨_, rfl, rfl⟩
  · exact .inl ⟨_, rfl, rfl⟩

end

/-! ### Requests that are answered -/

section Answers

variable {σ : Type} (c : Client) (net : Network σ)

/-- The request can be built, and is answered with an allowed status and this body. -/
structure Responds (method url : String) (allowed : List ℤ) (s : σ) (body : String) : Prop where
  answered : ∃ req s₁ resp, Http.exec net (c.buildRequest method url none) s = (.ok req, s₁) ∧
    (net (.do req) s₁).1 = .ok resp ∧ Client.isSuccessStatus resp.statusCode allowed = true ∧
    resp.readError = none ∧ resp.body = body

variable {c net}

/-- An operation goes on with the body of the answer. -/
theorem exec_responds {method url : String} {allowed : List ℤ} {s : σ} {body : String}
    (h : Responds c net method url allowed s body) :
    ∃ s', ∀ {α : Type} (failed : String) (k : String → Http α), Http.exec net (do
      let req ← c.buildRequest method url none
      let resp ← Client.send req failed allowed
      let body ← Client.readAll resp
      k body) s = Http.exec net (k body) s' := by
  obtain ⟨req, s₁, resp, hbuild, hdo, hstatus, hread, rfl⟩ := h.answered
  refine ⟨(net (.do req) s₁).2, fun failed k => ?_⟩
  rw [Http.exec_bind_ok net hbuild, Http.exec_bind_ok net (exec_send hdo hstatus)]
  simp only [Client.readAll, hread]
  rw [Http.exec_bind_ok net (Http.exec_pure net resp.body _)]

end Answers

/-- Secrets of these vaults are read from the list of all of them. -/
def Client.ReadsList (c : Client) : Prop :=
  toLower c.cfg.getVaultType = "vaultwarden" ∨ toLower c.cfg.getVaultType = "bitwarden"

theorem Client.getSecret_fromList {c : Client} (h : c.ReadsList) (jsonErr : String → GoError)
    (name : String) : c.getSecret jsonErr name = c.getSecretFromList jsonErr name := if_pos h

theorem Client.getSecret_byOperation {c : Client} (h : ¬c.ReadsList) (jsonErr : String → GoError)
    (name : String) : c.getSecret jsonErr name = c.getSecretByOperation jsonErr name := if_neg h

section Gets

variable {σ : Type} (jsonErr : String → GoError) (c : Client) (net : Network σ) (name : String) (s : σ)

/-- The response that `GetSecret` takes the value from has this body. -/
structure GetAnswered (body : String) : Prop where
  byOperation : ¬c.ReadsList → Responds c net (c.operationMethod "get") (c.operationEndpoint "get" name)
    (c.operationStatusCodes "get") s body
  fromList : c.ReadsList → ∃ names s₁, Http.exec net (c.listSecrets jsonErr) s = (.ok names, s₁) ∧
    name ∈ names ∧ Responds c net "GET" (trimSuffix c.cfg.endpoint "/") [200] s₁ body

variable {jsonErr c net name s} {body : String} {data : List (String × Value)}
  (hanswer : GetAnswered jsonErr c net name s body)
  (hbody : unmarshal body.toList = some (.object data))

include hanswer hbody

/-- From the list, the value of the first item with the name is taken. -/
theorem exec_getSecret_fromList (hlist : c.ReadsList) (text : String) :
    (Http.exec net (c.getSecret jsonErr name) s).1 = .ok ⟨name, utf8 text⟩ ↔
      (arrayField data "data").bind (c.findItem name) = some text := by
  obtain ⟨names, s₁, hnames, hmem, hresponds⟩ := hanswer.fromList hlist
  have hmap : unmarshalMap body = some data := by rw [unmarshalMap, hbody]
  rw [Client.getSecret_fromList hlist, Client.getSecretFromList, Http.exec_bind_ok net hnames,
    if_neg (not_not.mpr hmem)]
  obtain ⟨s₂, hexec⟩ := exec_responds hresponds
  rw [hexec, hmap]
  dsimp only
  rcases (arrayField data "data").bind (c.findItem name) with _ | value
  · simp
  · simp [utf8_injective.eq_iff]

/-- By operation, the value path of the override is looked up from the root. -/
theorem exec_getSecret_byOperation {p : ResponseParserConfig} (hop : ¬c.ReadsList)
    (hparser : c.operationParser "get" = newParserFromConfig (some p)) (hvalue : p.valuePath ≠ "")
    (text : String) :
    (Http.exec net (c.getSecret jsonErr name) s).1 = .ok ⟨name, utf8 text⟩ ↔
      ((valueAt (.object data) p.valuePath).or (defaultField data)).map valueToString = some text := by
  rw [Client.getSecret_byOperation hop, Client.getSecretByOperation, hparser]
  obtain ⟨s', hexec⟩ := exec_responds (hanswer.byOperation hop)
  rw [hexec]
  rcases parseGetValue_override jsonErr hvalue hbody with ⟨value, hparse, htext⟩ | ⟨err, hparse, hnone⟩
  · rw [hparse, htext]
    simp [utf8_injective.eq_iff]
  · rw [hparse, hnone]
    simp

end Gets

/-- What `GetSecret` takes from the body has the string form of the value at the path and value path. -/
inductive TakesOverride (c : Client) (name : String) (p : ResponseParserConfig)
    (data : List (String × Value)) : Prop
  /-- The value path finds it from the root. -/
  | root (hop : ¬c.ReadsList)
      (h : textAt (.object data) p.valuePath = textAt (.object data) (p.listPath ++ "." ++ p.valuePath))
  /-- The value path finds nothing from the root, and the first of the usual fields is the one. -/
  | usual (hop : ¬c.ReadsList) (hmiss : valueAt (.object data) p.valuePath = none)
      (h : (defaultField data).map valueToString =
        textAt (.object data) (p.listPath ++ "." ++ p.valuePath))
  /-- The override is not looked at, and the item with the name has the same value. -/
  | item (hlist : c.ReadsList)
      (h : (arrayField data "data").bind (c.findItem name) =
        textAt (.object data) (p.listPath ++ "." ++ p.valuePath))

/-- Where get is overridden with a path and a value path, `GetSecret` returns the string form of the
    value there exactly if that is what the value path gives from the root, or if it gives nothing there
    and the first of the usual fields does. -/
theorem override_selects_iff (jsonErr : String → GoError) {cfg : VaultConfig} {p : ResponseParserConfig}
    (hget : (cfg.operationsOverride "get").bind OperationConfig.responseParser = some p)
    (hvalue : p.valuePath ≠ "") {σ : Type} {net : Network σ} {name : String} {s : σ} {body : String}
    (hanswer : GetAnswered jsonErr (newClient cfg) net name s body)
    {data o : List (String × Value)} (hbody : unmarshal body.toList = some (.object data))
    (hobject : valueAt (.object data) p.listPath = some (.object o)) {v : Value}
    (hv : valueAt (.object o) p.valuePath = some v) :
    (Http.exec net ((newClient cfg).getSecret jsonErr name) s).1 =
        .ok ⟨name, utf8 (valueToString v)⟩ ↔
      TakesOverride (newClient cfg) name p data := by
  have htext : textAt (.object data) (p.listPath ++ "." ++ p.valuePath) = some (valueToString v) := by
    rw [textAt, valueAt_dot, hobject, Option.bind_some, hv, Option.map_some]
  by_cases hlist : (newClient cfg).ReadsList
  · rw [exec_getSecret_fromList hanswer hbody hlist, ← htext]
    constructor
    · exact .item hlist
    · rintro (⟨hop, -⟩ | ⟨hop, -⟩ | ⟨-, h⟩)
      · exact absurd hlist hop
      · exact absurd hlist hop
      · exact h
  · rw [exec_getSecret_byOperation hanswer hbody hlist (operationParser_newClient hget) hvalue, ← htext]
    constructor
    · intro h
      rcases hroot : valueAt (.object data) p.valuePath with _ | w
      · rw [hroot, Option.none_or] at h
        exact .usual hlist hroot h
      · rw [hroot, Option.some_or] at h
        refine .root hlist ?_
        rw [textAt, hroot, h]
    · rintro (⟨-, h⟩ | ⟨-, hmiss, h⟩ | ⟨hlist', -⟩)
      · rw [textAt] at h
        rcases hroot : valueAt (.object data) p.valuePath with _ | w
        · rw [hroot, htext] at h
          cases h
        · rw [hroot] at h
          rw [Option.some_or, h]
      · rw [hmiss, Option.none_or, h]
      · exact absurd hlist' hlist

/-! ### A server with one answer -/

/-- The requests to these methods and URLs are let through, and answered with this response. -/
structure Replies {σ : Type} (net : Network σ) (requests : List (String × String)) (resp : Response) :
    Prop where
  newRequest : ∀ method url, (method, url) ∈ requests → ∀ s, (net (.newRequest method url) s).1 = none
  oauthToken : ∀ s, ∃ token, (net .oauthToken s).1 = .ok token
  clientDo : ∀ req : Request, (req.method, req.url) ∈ requests → ∀ s, (net (.do req) s).1 = .ok resp

section Replies

variable {σ : Type} {net : Network σ} {requests : List (String × String)} {resp : Response} {c : Client}
  {method url : String}

theorem Replies.build (h : Replies net requests resp) (hauth : c.cfg.auth ≠ none)
    (hmem : (method, url) ∈ requests) (s : σ) : ∃ req s',
      Http.exec net (c.buildRequest method url none) s = (.ok req, s') ∧
        (net (.do req) s').1 = .ok resp := by
  have hnet : Connects net (fun _ => ()) method url :=
    ⟨h.newRequest method url hmem, fun _ => rfl, h.oauthToken, fun _ => rfl⟩
  obtain ⟨req, s', hbuild, rfl, rfl, -⟩ := exec_buildRequest hnet hauth none s
  exact ⟨req, s', hbuild, h.clientDo req hmem s'⟩

theorem Replies.responds (h : Replies net requests resp) (hread : resp.readError = none)
    (hauth : c.cfg.auth ≠ none) {allowed : List ℤ}
    (hstatus : Client.isSuccessStatus resp.statusCode allowed = true)
    (hmem : (method, url) ∈ requests) (s : σ) : Responds c net method url allowed s resp.body := by
  obtain ⟨req, s', hbuild, hdo⟩ := h.build hauth hmem s
  exact ⟨req, s', resp, hbuild, hdo, hstatus, hread, rfl⟩

end Replies

/-- Every request is answered with this body. -/
def answering (body : String) : Network Unit
  | .newRequest _ _, s => (none, s)
  | .oauthToken, s => (.ok "token", s)
  | .do _, s => (.ok ⟨200, body, none⟩, s)

theorem replies_answering (requests : List (String × String)) (body : String) :
    Replies (answering body) requests ⟨200, body, none⟩ where
  newRequest _ _ _ _ := rfl
  oauthToken _ := ⟨_, rfl⟩
  clientDo _ _ _ := rfl

theorem getAnswered_answering (jsonErr : String → GoError) {c : Client} (hop : ¬c.ReadsList)
    (hauth : c.cfg.auth ≠ none)
    (hstatus : Client.isSuccessStatus 200 (c.operationStatusCodes "get") = true) (name body : String) :
    GetAnswered jsonErr c (answering body) name () body where
  byOperation _ := (replies_answering [_] body).responds rfl hauth hstatus (List.mem_singleton_self _) ()
  fromList hlist := absurd hlist hop

/-- A key/value vault with the documented override of get. -/
def hashicorpVault : VaultConfig where
  id := "hashicorp_vault"
  name := "HashiCorp Vault"
  type := "vault"
  endpoint := "https://vault.internal.com/v1/secret/data"
  auth := some { method := "custom", headers := [("X-Vault-Token", "token")] }
  operations := some [
    ("list", some { responseParser := some { listPath := "data.keys" } }),
    ("get", some { responseParser := some { listPath := "data.data", valuePath := "value" } })]

theorem hashicorpVault_get : (hashicorpVault.operationsOverride "get").bind
    OperationConfig.responseParser = some { listPath := "data.data", valuePath := "value" } := rfl

theorem not_readsList_hashicorpVault : ¬(newClient hashicorpVault).ReadsList := by
  rw [Client.ReadsList]
  decide +kernel

theorem getAnswered_hashicorpVault (jsonErr : String → GoError) (name body : String) :
    GetAnswered jsonErr (newClient hashicorpVault) (answering body) name () body := by
  have hauth : (newClient hashicorpVault).cfg.auth ≠ none := by
    rw [newClient_auth]
    exact Option.some_ne_none _
  have hstatus : Client.isSuccessStatus 200 ((newClient hashicorpVault).operationStatusCodes "get") =
      true := by decide +kernel
  exact getAnswered_answering jsonErr not_readsList_hashicorpVault hauth hstatus name body

/-- The envelope of a secret, with what else is in the response. -/
def envelope (rest : List (String × Value)) : List (String × Value) :=
  ("data", .object [("data", .object [("value", .string "s")])]) :: rest

theorem valueAt_envelope (rest : List (String × Value)) :
    valueAt (.object (envelope rest)) "data.data" = some (.object [("value", .string "s")]) := by
  have hkeys : pathKeys "data.data" = ["data", "data"] := by decide +kernel
  rw [valueAt, hkeys]
  rfl

theorem unmarshal_envelope {rest : List (String × Value)} (hord : (Value.object (envelope rest)).Ordered)
    (hdepth : (Value.object (envelope rest)).toJson.depth ≤ maxNestingDepth) :
    unmarshal (String.ofList (marshal (.object (envelope rest)))).toList =
      some (.object (envelope rest)) := by
  rw [String.toList_ofList]
  exact unmarshal_marshal hord hdepth

theorem valueAt_value (data : List (String × Value)) :
    valueAt (.object data) "value" = data.lookup "value" := valueAt_key (by decide +kernel) _

theorem override_selects_root :
    (Http.exec (answering (String.ofList (marshal (.object (envelope [("value", .string "s")])))))
      ((newClient hashicorpVault).getSecret GoError.new "db") ()).1 = .ok ⟨"db", utf8 "s"⟩ := by
  have hord : (Value.object (envelope [("value", .string "s")])).Ordered := by
    simp only [envelope, Value.Ordered, Sorted, Value.OrderedMembers, Value.OrderedMember]
    decide +kernel
  have hv : valueAt (.object [("value", .string "s")]) "value" = some (.string "s") := valueAt_value _
  have hiff := override_selects_iff GoError.new hashicorpVault_get (by decide)
    (getAnswered_hashicorpVault _ "db" _) (unmarshal_envelope hord (by decide +kernel))
    (valueAt_envelope _) hv
  refine hiff.mpr ?_
  refine .root not_readsList_hashicorpVault ?_
  rw [textAt, textAt, valueAt_dot, valueAt_envelope, valueAt_value, Option.bind_some, valueAt_value]
  rfl

/-- Under the documented override, the object around the value is returned. -/
theorem enclosing_object_returned : ¬∀ (jsonErr : String → GoError) (cfg : VaultConfig)
    (p : ResponseParserConfig),
    (cfg.operationsOverride "get").bind OperationConfig.responseParser = some p →
    p.listPath ≠ "" → p.valuePath ≠ "" →
    ∀ (net : Network Unit) (name : String) (body : String) (data o : List (String × Value)) (v : Value),
    GetAnswered jsonErr (newClient cfg) net name () body →
    unmarshal body.toList = some (.object data) →
    valueAt (.object data) p.listPath = some (.object o) → valueAt (.object o) p.valuePath = some v →
    (Http.exec net ((newClient cfg).getSecret jsonErr name) ()).1 =
      .ok ⟨name, utf8 (valueToString v)⟩ := by
  intro hall
  have hord : (Value.object (envelope [])).Ordered := by
    simp only [envelope, Value.Ordered, Sorted, Value.OrderedMembers, Value.OrderedMember]
    decide +kernel
  have hbody := unmarshal_envelope hord (by decide +kernel)
  have hanswer := getAnswered_hashicorpVault GoError.new "db"
    (String.ofList (marshal (.object (envelope []))))
  have hsecret := hall .new hashicorpVault _ hashicorpVault_get (by decide) (by decide) _ "db" _ _ _ _
    hanswer hbody (valueAt_envelope []) (valueAt_value _)
  have htaken := (exec_getSecret_byOperation hanswer hbody not_readsList_hashicorpVault
    (operationParser_newClient hashicorpVault_get) (by decide) _).mp hsecret
  rw [valueAt_value] at htaken
  exact absurd htaken (by decide +kernel)

end VaultsSyncer
