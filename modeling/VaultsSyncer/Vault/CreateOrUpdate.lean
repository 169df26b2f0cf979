import VaultsSyncer.Vault.WriteMethod

/-! `SetSecret` of a Bitwarden-style vault. It posts an item to the collection whether or not the name is
    there already; `ListSecrets` lists every item, and `GetSecret` takes the first one with the name.

        set one after the other     ListSecrets     GetSecret "k"
        k to v1                     k               v1
        k to v1, k to v2            k, k            v1

    So a secret is created but never updated: `createsOrUpdates_iff`. -/

namespace VaultsSyncer

open GoStd Schemes Schemes.Prog

namespace Client

/-- Secrets set one after the other. -/
def setAll (c : Client) (sets : List (String × String)) : Http Unit :=
  sets.forM fun e => c.setSecret e.1 e.2

/-- The value that a set request carries. -/
def sent (value : String) : Value := (jsonData value).getD (.string value)

/-- The fields of an item that the client looks at. -/
def itemFields (c : Client) : List String :=
  ["name", "value", c.cfg.fieldNames.nameField, c.cfg.fieldNames.valueField]

end Client

/-! ### The server -/

/-- Members that a server adds on its own, under other keys than these. -/
structure OwnMembers (taken : List String) (ms : List (String × Json)) : Prop where
  fresh : ∀ k ∈ taken, k ∉ ms.map Prod.fst
  reads : ∀ m ∈ ms, m.2.toValue.isSome
  flat : ∀ m ∈ ms, m.2.depth ≤ 1

/-- A server that keeps an ordered list of items: a successful POST to the collection appends the object
    it carries, and a GET returns the whole list. Objects may get members of the server's own. -/
structure KeepsItems {σ : Type} (c : Client) (net : Network σ) (items : σ → List Json) : Prop where
  posts : ∀ name, Connects net items "POST" (c.operationEndpoint "set" name)
  gets : Connects net items "GET" (trimSuffix c.cfg.endpoint "/")
  post : ∀ s req name body ms resp, req.method = "POST" → req.url = c.operationEndpoint "set" name →
    req.body = some body → Json.read body.toList = some (.object ms) →
    (net (.do req) s).1 = .ok resp → Client.isSuccessStatus resp.statusCode [200, 201] = true →
    ∃ own, OwnMembers c.itemFields own ∧ items (net (.do req) s).2 = items s ++ [.object (ms ++ own)]
  get : ∀ s req, req.method = "GET" → req.url = trimSuffix c.cfg.endpoint "/" → req.body = none →
    (∃ resp own, (net (.do req) s).1 = .ok resp ∧ resp.statusCode = 200 ∧ resp.readError = none ∧
      OwnMembers ["data"] own ∧
      Json.read resp.body.toList = some (.object (("data", .array (items s)) :: own))) ∧
    items (net (.do req) s).2 = items s

/-- What a client decodes the items of a list answer to; nothing when they are nested too deep for
    encoding/json or hold a number out of range. -/
def answerItems (js : List Json) : Option (List Value) :=
  if Json.depthElems js + 2 ≤ maxNestingDepth then Json.toValues js else none

theorem answerItems_append (js js' : List Json) : answerItems (js ++ js') =
    (answerItems js).bind fun vs => (answerItems js').map fun vs' => vs ++ vs' := by
  have hdepth : Json.depthElems (js ++ js') + 2 ≤ maxNestingDepth ↔
      Json.depthElems js + 2 ≤ maxNestingDepth ∧ Json.depthElems js' + 2 ≤ maxNestingDepth := by
    rw [Json.depthElems_append]
    omega
  simp only [answerItems, hdepth, Json.toValues_append]
  by_cases h : Json.depthElems js + 2 ≤ maxNestingDepth
  · by_cases h' : Json.depthElems js' + 2 ≤ maxNestingDepth
    · simp only [h, h', and_self, ↓reduceIte]
    · cases Json.toValues js <;> simp [h, h']
  · simp only [h, false_and, ↓reduceIte, Option.bind_none]

/-- A list answer decodes to the items, or not at all. -/
theorem unmarshal_answer {body : String} {js : List Json} {own : List (String × Json)}
    (hown : OwnMembers ["data"] own)
    (hread : Json.read body.toList = some (.object (("data", .array js) :: own))) :
    (∀ vs, answerItems js = some vs →
      ∃ m, unmarshalMap body = some m ∧ m.lookup "data" = some (.array vs)) ∧
    (answerItems js = none → unmarshalMap body = none) := by
  obtain ⟨es, hes, hkeys⟩ := Json.toMembers_of_forall hown.reads
  have hflat : Json.depthMembers own ≤ 1 := Json.depthMembers_le hown.flat
  have hdepth : (Json.object (("data", .array js) :: own)).depth ≤ maxNestingDepth ↔
      Json.depthElems js + 2 ≤ maxNestingDepth := by
    have hmax : 2 ≤ maxNestingDepth := by decide
    simp only [Json.depth, Json.depthMembers, Json.depthMember]
    omega
  have hvalue : (Json.object (("data", .array js) :: own)).toValue =
      (Json.toValues js).map fun vs => .object (mapOf (("data", .array vs) :: es)) := by
    rw [Json.toValue, Json.toMembers, Json.toMember, Json.toValue, hes]
    cases Json.toValues js <;> rfl
  have hdata (vs : List Value) :
      (mapOf (("data", .array vs) :: es)).lookup "data" = some (.array vs) := by
    have hfresh : "data" ∉ es.map Prod.fst := hkeys ▸ hown.fresh "data" (List.mem_cons_self ..)
    have hlookup : (mapOf ([("data", .array vs)] ++ es)).lookup "data" = _ := lookup_mapOf_append hfresh
    exact hlookup
  simp only [unmarshalMap, unmarshal, hread, Option.bind_eq_bind, Option.bind_some, hdepth, hvalue,
    answerItems]
  by_cases h : Json.depthElems js + 2 ≤ maxNestingDepth
  · simp only [h, ↓reduceIte]
    constructor
    · intro vs hvs
      rw [hvs]
      exact ⟨_, rfl, hdata vs⟩
    · intro hvs
      rw [hvs]
      rfl
  · simp [h]

/-! ### What is posted -/

theorem toJsonMembers_eq_map : ∀ ms : List (String × Value),
    Value.toJsonMembers ms = ms.map fun m => (m.1, m.2.toJson)
  | [] => rfl
  | (k, v) :: ms => by rw [Value.toJsonMembers, Value.toJsonMember, toJsonMembers_eq_map, List.map_cons]

theorem depth_le_depthMembers : ∀ {ms : List (String × Json)} {m : String × Json}, m ∈ ms →
    m.2.depth ≤ Json.depthMembers ms
  | m' :: ms, m, h => by
    rw [Json.depthMembers, Json.depthMember]
    rcases List.mem_cons.mp h with rfl | h
    · exact le_max_left ..
    · exact (depth_le_depthMembers h).trans (le_max_right ..)

theorem mem_of_lookup {α : Type} {k : String} {v : α} : ∀ {m : List (String × α)},
    m.lookup k = some v → (k, v) ∈ m
  | (k', v') :: m, h => by
    rw [List.lookup_cons] at h
    split at h
    · rename_i hk
      obtain rfl : v' = v := Option.some.inj h
      rw [beq_iff_eq.mp hk]
      exact List.mem_cons_self ..
    · exact List.mem_cons_of_mem _ (mem_of_lookup h)

section Posted

variable (c : Client) (name value : String)

theorem ordered_sent : (Client.sent value).Ordered := by
  rw [Client.sent]
  rcases hdata : Client.jsonData value with _ | g
  · exact trivial
  · exact (jsonData_spec hdata).1

/-- The object a set request carries, field by field. -/
theorem payload_spec : ∃ m, c.payload name value = .object m ∧ Sorted m ∧
    (∀ e ∈ m, e.2 = Client.sent value ∨ e.2 = .string name ∨ e.2 = .number Float64.one) ∧
    ∀ k, m.lookup k =
      if toLower c.cfg.fieldNames.valueField = "login" ∧ k = "type" then some (.number Float64.one)
      else if k = c.cfg.fieldNames.valueField then some (Client.sent value)
      else if k = c.cfg.fieldNames.nameField then some (.string name) else none := by
  obtain ⟨base, hbase⟩ : ∃ base, base = insertKey c.cfg.fieldNames.valueField (Client.sent value)
    [(c.cfg.fieldNames.nameField, Value.string name)] := ⟨_, rfl⟩
  have hpayload : c.payload name value = .object (if toLower c.cfg.fieldNames.valueField = "login" then
      insertKey "type" (.number Float64.one) base else base) := by
    rw [hbase]
    rfl
  generalize Client.sent value = v at hbase ⊢
  have hsorted : Sorted base := hbase ▸ sorted_insertKey _ _ (List.pairwise_singleton ..)
  have hvalues : ∀ e ∈ base, e.2 = v ∨ e.2 = .string name := by
    intro e he
    rw [hbase] at he
    rcases mem_insertKey he with rfl | he
    · exact .inl rfl
    · rw [List.mem_singleton] at he
      exact .inr (congrArg Prod.snd he)
  have hlookup (k : String) : base.lookup k =
      if k = c.cfg.fieldNames.valueField then some v
      else if k = c.cfg.fieldNames.nameField then some (.string name) else none := by
    rw [hbase, lookup_insertKey]
    by_cases hk : k = c.cfg.fieldNames.nameField
    · simp [hk]
    · simp [hk, List.lookup_cons, beq_eq_false_iff_ne.mpr hk]
  by_cases hlogin : toLower c.cfg.fieldNames.valueField = "login"
  · refine ⟨insertKey "type" (.number Float64.one) base, ?_, sorted_insertKey _ _ hsorted, ?_, ?_⟩
    · rw [hpayload, if_pos hlogin]
    · intro e he
      rcases mem_insertKey he with rfl | he
      · exact .inr (.inr rfl)
      · exact (hvalues e he).imp_right .inl
    · intro k
      rw [lookup_insertKey, hlookup]
      simp only [hlogin, true_and]
  · refine ⟨base, ?_, hsorted, fun e he => (hvalues e he).imp_right .inl, fun k => ?_⟩
    · rw [hpayload, if_neg hlogin]
    · rw [hlookup]
      simp only [hlogin, false_and, ↓reduceIte]

/-- An item is decoded to the payload it was posted with, as far as the client looks at it; nothing is
    decoded when the value is nested too deep for the list answer. -/
theorem answerItems_posted {m : List (String × Value)} (hm : c.payload name value = .object m)
    {own : List (String × Json)} (hown : OwnMembers c.itemFields own) :
    ((Client.sent value).toJson.depth + 3 ≤ maxNestingDepth →
      ∃ m', answerItems [.object (Value.toJsonMembers m ++ own)] = some [.object m'] ∧
        ∀ k ∈ c.itemFields, m'.lookup k = m.lookup k) ∧
    (¬(Client.sent value).toJson.depth + 3 ≤ maxNestingDepth →
      answerItems [.object (Value.toJsonMembers m ++ own)] = none) := by
  obtain ⟨m₀, hm₀, hsorted, hvalues, hlookup⟩ := payload_spec c name value
  obtain rfl : m₀ = m := Value.object.inj (hm₀.symm.trans hm)
  obtain ⟨es, hes, hkeys⟩ := Json.toMembers_of_forall hown.reads
  have hv : (Client.sent value).Ordered := by with_reducible exact ordered_sent value
  generalize Client.sent value = v at hv hvalues hlookup ⊢
  have hordered : Value.OrderedMembers m₀ := by
    refine Value.orderedMembers_iff.mpr fun e he => ?_
    rcases hvalues e he with h | h | h
    · rw [h]
      exact hv
    · rw [h]
      trivial
    · rw [h]
      trivial
  have hmembers : Json.depthMembers (Value.toJsonMembers m₀) = v.toJson.depth := by
    refine le_antisymm (Json.depthMembers_le fun j hj => ?_) ?_
    · rw [toJsonMembers_eq_map, List.mem_map] at hj
      obtain ⟨e, he, rfl⟩ := hj
      rcases hvalues e he with h | h | h
      · rw [h]
      · rw [h]
        exact Nat.zero_le _
      · rw [h]
        exact Nat.zero_le _
    · -- the value stays in its field: "type" is put in for another one
      have htype : ¬(toLower c.cfg.fieldNames.valueField = "login" ∧
          c.cfg.fieldNames.valueField = "type") := by
        rintro ⟨hlogin, htype⟩
        rw [htype] at hlogin
        exact absurd hlogin (by decide)
      have hmem := mem_of_lookup ((hlookup _).trans ((if_neg htype).trans (if_pos rfl)))
      have hmap := List.mem_map_of_mem (f := fun m => (m.1, m.2.toJson)) hmem
      rw [← toJsonMembers_eq_map] at hmap
      exact depth_le_depthMembers hmap
  have hdepth : Json.depthElems [.object (Value.toJsonMembers m₀ ++ own)] + 2 ≤ maxNestingDepth ↔
      v.toJson.depth + 3 ≤ maxNestingDepth := by
    have hflat : Json.depthMembers own ≤ 1 := Json.depthMembers_le hown.flat
    have hmax : 4 ≤ maxNestingDepth := by decide
    rw [Json.depthElems, Json.depthElems, Json.depth, Json.depthMembers_append, hmembers]
    omega
  have hvalue : Json.toValues [.object (Value.toJsonMembers m₀ ++ own)] =
      some [.object (mapOf (m₀ ++ es))] := by
    rw [Json.toValues, Json.toValue, Json.toMembers_append, toMembers_toJsonMembers hordered, hes]
    rfl
  rw [answerItems, hvalue, if_congr hdepth rfl rfl]
  constructor
  · intro h
    rw [if_pos h]
    refine ⟨mapOf (m₀ ++ es), rfl, fun k hk => ?_⟩
    rw [lookup_mapOf_append (hkeys ▸ hown.fresh k hk), mapOf_of_sorted hsorted]
  · intro h
    exact if_neg h

end Posted

/-! ### The client -/

/-- How the default list operation takes the name of an item. -/
def listName : Value → Option String :=
  JsonPathParser.itemName { listPath := "data", nameField := "name" }

/-- The operations of a Bitwarden-style client. -/
structure Client.Bitwarden (c : Client) : Prop where
  setMethod : c.operationMethod "set" = "POST"
  setCodes : c.operationStatusCodes "set" = [200, 201]
  listMethod : c.operationMethod "list" = "GET"
  listURL : c.operationEndpoint "list" "" = trimSuffix c.cfg.endpoint "/"
  listCodes : c.operationStatusCodes "list" = [200]
  listParser : c.operationParser "list" = { listPath := "data", nameField := "name" }
  fromList : ∀ jsonErr name, c.getSecret jsonErr name = c.getSecretFromList jsonErr name

/-- The default operations make one. -/
theorem newClient_bitwarden {cfg : VaultConfig}
    (ht : toLower cfg.getVaultType = "bitwarden" ∨ toLower cfg.getVaultType = "vaultwarden")
    (hops : cfg.operationEntries = []) : (newClient cfg).Bitwarden := by
  have hdefault (op : String) : (newClient cfg).operationConfig op =
      (operationDefaults cfg.getVaultType cfg.endpoint).lookup op := by
    have hnone : cfg.operationsOverride op = none := by
      rw [VaultConfig.operationsOverride, hops]
      rfl
    exact operationConfig_of_default hnone
  obtain ⟨ops, hcfg⟩ := applyDefaultOperations_eq cfg.populateDefaults
  have hendpoint : (newClient cfg).cfg.endpoint = cfg.endpoint := by
    rw [newClient, hcfg]
    rfl
  have htype : (newClient cfg).cfg.getVaultType = cfg.getVaultType := by
    rw [newClient, hcfg]
    exact VaultConfig.getVaultType_populateDefaults cfg
  have hne : toLower cfg.getVaultType ≠ "azure" ∧ toLower cfg.getVaultType ≠ "vault" := by
    rcases ht with ht | ht
    · rw [ht]
      decide
    · rw [ht]
      decide
  have hdefaults : operationDefaults cfg.getVaultType cfg.endpoint =
      [("list", {
          method := "GET"
          responseParser := some { listPath := "data", nameField := "name" } }),
        ("set", {
          method := "POST"
          endpoint := trimSuffix cfg.endpoint "/"
          statusCodes := [200, 201] }),
        ("delete", {
          method := "DELETE"
          endpoint := trimSuffix cfg.endpoint "/" ++ "/{name}"
          statusCodes := [200, 204] })] := by
    simp only [operationDefaults, hne, ht, ↓reduceIte]
  have hne' : ("set" == "list") = false := by decide
  have hlist := hdefault "list"
  have hset := hdefault "set"
  rw [hdefaults, List.lookup_cons_self] at hlist
  rw [hdefaults, List.lookup_cons, hne'] at hset
  dsimp only at hset
  rw [List.lookup_cons_self] at hset
  have hget : toUpper "GET" = "GET" := by decide +kernel
  have hpost : toUpper "POST" = "POST" := by decide +kernel
  constructor
  · rw [Client.operationMethod, hset]
    exact hpost
  · rw [Client.operationStatusCodes, hset]
    rfl
  · rw [Client.operationMethod, hlist]
    exact hget
  · simp [Client.operationEndpoint, hlist]
  · rw [Client.operationStatusCodes, hlist]
    rfl
  · rw [Client.operationParser, hlist]
    rfl
  · intro jsonErr name
    rw [Client.getSecret, htype, if_pos ht.symm]

section Running

variable {σ : Type} {c : Client} {net : Network σ} {items : σ → List Json}

/-- A response that was kept came from the server, with an allowed status. -/
theorem exec_send_ok {req : Request} {failed : String} {allowed : List ℤ} {resp : Response} {s s' : σ}
    (h : Http.exec net (Client.send req failed allowed) s = (.ok resp, s')) :
    (net (.do req) s).1 = .ok resp ∧ Client.isSuccessStatus resp.statusCode allowed = true ∧
      s' = (net (.do req) s).2 := by
  rw [Client.send, Http.exec_bind, Http.exec_clientDo] at h
  rcases hdo : (net (.do req) s).1 with err | resp'
  · rw [hdo] at h
    cases h
  · rw [hdo] at h
    dsimp only at h
    split at h
    · rename_i hstatus
      rw [Http.exec_pure, Prod.mk.injEq, Except.ok.injEq] at h
      exact ⟨by rw [h.1], h.1 ▸ hstatus, h.2.symm⟩
    · cases h

variable (hc : c.Bitwarden) (hserver : KeepsItems c net items)

include hserver

/-- A GET of the collection is answered with the items. -/
theorem exec_get (hauth : c.cfg.auth ≠ none) (failed : String) (s : σ) :
    ∃ req s₁ resp s₂ own,
      Http.exec net (c.buildRequest "GET" (trimSuffix c.cfg.endpoint "/") none) s = (.ok req, s₁) ∧
      Http.exec net (Client.send req failed [200]) s₁ = (.ok resp, s₂) ∧ resp.readError = none ∧
      OwnMembers ["data"] own ∧
      Json.read resp.body.toList = some (.object (("data", .array (items s)) :: own)) ∧
      items s₂ = items s := by
  obtain ⟨req, s₁, hbuild, hmethod, hurl, hbody, hkept⟩ := exec_buildRequest hserver.gets hauth
    none s
  obtain ⟨⟨resp, own, hdo, hstatus, hread, hown, htext⟩, hitems⟩ := hserver.get s₁ req hmethod hurl hbody
  have hallowed : Client.isSuccessStatus resp.statusCode [200] = true := by
    rw [hstatus]
    decide
  exact ⟨req, s₁, resp, _, own, hbuild, exec_send hdo hallowed, hread, hown, hkept ▸ htext,
    hitems.trans hkept⟩

include hc

/-- Without auth settings no secret is set. -/
theorem auth_of_setSecret {name value : String} {s s' : σ}
    (h : Http.exec net (c.setSecret name value) s = (.ok (), s')) : c.cfg.auth ≠ none := by
  intro hnone
  rw [Client.setSecret, Http.exec_bind, Client.buildRequest, Http.exec_bind, Http.exec_newRequest,
    hc.setMethod, (hserver.posts name).newRequest s] at h
  have hauth (req : Request) (s : σ) :
      Http.exec net (c.addAuthHeaders req) s = (.error .nilDereference, s) := by
    rw [Client.addAuthHeaders, hnone]
    rfl
  dsimp only at h
  rw [Http.exec_bind, exec_adapt, hauth] at h
  cases h

/-- What a successful set does: one item more, at the end. -/
theorem items_setSecret {name value : String} {m : List (String × Value)}
    (hm : c.payload name value = .object m) {s s' : σ}
    (h : Http.exec net (c.setSecret name value) s = (.ok (), s')) :
    ∃ own, OwnMembers c.itemFields own ∧
      items s' = items s ++ [.object (Value.toJsonMembers m ++ own)] := by
  obtain ⟨req, s₁, hbuild, hmethod, hurl, hbody, hkept⟩ := exec_buildRequest (hserver.posts name)
    (auth_of_setSecret hc hserver h) (some (String.ofList (marshal (c.payload name value)))) s
  have hread : Json.read (String.ofList (marshal (c.payload name value))).toList =
      some (.object (Value.toJsonMembers m)) := by
    rw [String.toList_ofList, marshal, Json.read_print, hm, Value.toJson]
  rw [Client.setSecret, hc.setMethod, hc.setCodes, Http.exec_bind_ok net hbuild, Http.exec_bind] at h
  rcases hsend : Http.exec net (Client.send (req.setHeader "Content-Type" "application/json")
    "failed to set secret: " [200, 201]) s₁ with ⟨e | resp, s₂⟩
  · rw [hsend] at h
    cases h
  · rw [hsend] at h
    obtain ⟨hdo, hstatus, rfl⟩ := exec_send_ok hsend
    obtain ⟨own, hown, hitems⟩ := hserver.post s₁ (req.setHeader "Content-Type" "application/json")
      name _ _ resp hmethod hurl hbody hread hdo hstatus
    obtain rfl : (net (.do (req.setHeader "Content-Type" "application/json")) s₁).2 = s' :=
      congrArg Prod.snd h
    exact ⟨own, hown, hkept ▸ hitems⟩

/-- `ListSecrets` returns the names of all items, in order. -/
theorem exec_listSecrets (jsonErr : String → GoError) (hauth : c.cfg.auth ≠ none) (s : σ) :
    ∃ s', items s' = items s ∧
      (∀ vs, answerItems (items s) = some vs →
        Http.exec net (c.listSecrets jsonErr) s = (.ok (vs.filterMap listName), s')) ∧
      (answerItems (items s) = none →
        ∃ err, Http.exec net (c.listSecrets jsonErr) s = (.error (.error err), s')) := by
  obtain ⟨req, s₁, resp, s₂, own, hbuild, hsend, hread, hown, htext, hitems⟩ :=
    exec_get hserver hauth "failed to list secrets: " s
  have hanswer := unmarshal_answer hown htext
  set names := JsonPathParser.parseList jsonErr { listPath := "data", nameField := "name" } resp.body
    with hnames
  have hlist : (∀ ns, names = .ok ns → Http.exec net (c.listSecrets jsonErr) s = (.ok ns, s₂)) ∧
      ∀ err, names = .error err →
        ∃ err', Http.exec net (c.listSecrets jsonErr) s = (.error (.error err'), s₂) := by
    rw [Client.listSecrets, hc.listMethod, hc.listURL, hc.listCodes, hc.listParser,
      Http.exec_bind_ok net hbuild, Http.exec_bind_ok net hsend]
    simp only [Client.readAll, hread]
    rw [Http.exec_bind_ok net (Http.exec_pure net resp.body _), ← hnames]
    constructor
    · intro ns hns
      rw [hns]
      rfl
    · intro err herr
      rw [herr]
      exact ⟨_, rfl⟩
  refine ⟨s₂, hitems, fun vs hvs => hlist.1 _ ?_, fun hnone => ?_⟩
  · obtain ⟨m, hm, hdata⟩ := hanswer.1 vs hvs
    have hpath : JsonPathParser.getValueAtPath (.object m) "data" = .ok (.array vs) := by
      have hsplit : split "data" '.' = ["data"] := by decide +kernel
      rw [JsonPathParser.getValueAtPath, hsplit]
      simp [JsonPathParser.navigate, hdata]
    rw [hnames, JsonPathParser.parseList, hm]
    rcases vs with _ | ⟨v, vs⟩
    · simp [hpath, JsonPathParser.arrayField, hdata]
    · simp [hpath, listName]
  · have herror : names = .error (.wrap "failed to parse JSON response: " (jsonErr resp.body)) := by
      rw [hnames, JsonPathParser.parseList, hanswer.2 hnone]
    exact hlist.2 _ herror

/-- `GetSecret` returns a value exactly when the name is listed and the first item with it has the
    value. -/
theorem getSecret_eq_ok (jsonErr : String → GoError) (hauth : c.cfg.auth ≠ none) {s : σ}
    {vs : List Value} (hvs : answerItems (items s) = some vs) (name value : String) :
    (Http.exec net (c.getSecret jsonErr name) s).1 = .ok ⟨name, utf8 value⟩ ↔
      name ∈ vs.filterMap listName ∧ c.findItem name vs = some value := by
  obtain ⟨s', hitems, hlist, -⟩ := exec_listSecrets hc hserver jsonErr hauth s
  rw [hc.fromList, Client.getSecretFromList, Http.exec_bind_ok net (hlist vs hvs)]
  by_cases hmem : name ∈ vs.filterMap listName
  · rw [if_neg (not_not.mpr hmem)]
    obtain ⟨req, s₁, resp, s₂, own, hbuild, hsend, hread, hown, htext, -⟩ :=
      exec_get hserver hauth "failed to get secret: " s'
    rw [← hitems] at hvs
    obtain ⟨m, hm, hdata⟩ := (unmarshal_answer hown htext).1 vs hvs
    rw [Http.exec_bind_ok net hbuild, Http.exec_bind_ok net hsend]
    simp only [Client.readAll, hread]
    rw [Http.exec_bind_ok net (Http.exec_pure net resp.body _), hm]
    simp only [JsonPathParser.arrayField, hdata, Option.bind_some, hmem, true_and]
    rcases c.findItem name vs with _ | found
    · simp
    · simp only [Http.exec_pure, Except.ok.injEq, Secret.mk.injEq, true_and, Option.some.injEq]
      exact ⟨fun h => utf8_injective h, fun h => congrArg utf8 h⟩
  · rw [if_pos hmem]
    simp [hmem]

/-- After sets that all succeed, the items are the ones before and one for each set. -/
theorem items_setAll : ∀ {sets : List (String × String)} {s s' : σ},
    Http.exec net (c.setAll sets) s = (.ok (), s') →
      ∃ js, items s' = items s ++ js ∧ List.Forall₂ (fun e j => ∃ m own,
        c.payload e.1 e.2 = .object m ∧ OwnMembers c.itemFields own ∧
          j = .object (Value.toJsonMembers m ++ own)) sets js
  | [], s, s', h => by
    obtain rfl : s = s' := congrArg Prod.snd h
    exact ⟨[], (List.append_nil _).symm, .nil⟩
  | (name, value) :: sets, s, s', h => by
    change Http.exec net (c.setSecret name value >>= fun _ => c.setAll sets) s = _ at h
    rcases hset : Http.exec net (c.setSecret name value) s with ⟨e | u, s₁⟩
    · rw [Http.exec_bind, hset] at h
      cases h
    · rw [Http.exec_bind_ok net hset] at h
      obtain ⟨m, hm, -⟩ := payload_spec c name value
      obtain ⟨own, hown, hitems⟩ := items_setSecret hc hserver hm hset
      obtain ⟨js, hjs, hall⟩ := items_setAll h
      refine ⟨_ :: js, ?_, .cons ⟨m, own, hm, hown, rfl⟩ hall⟩
      rw [hjs, hitems, List.append_assoc, List.singleton_append]

end Running

/-! ### Items as the client sees them -/

theorem Client.findItem_append (c : Client) (n : String) (vs ws : List Value) :
    c.findItem n (vs ++ ws) = (c.findItem n vs).or (c.findItem n ws) := List.findSome?_append

/-- The client sees the item as the payload of the set. -/
def Posted (c : Client) (e : String × String) (v : Value) : Prop :=
  listName v = listName (c.payload e.1 e.2) ∧ ∀ n, c.findItem n [v] = c.findItem n [c.payload e.1 e.2]

theorem posted_of_lookup {c : Client} {e : String × String} {m m' : List (String × Value)}
    (hm : c.payload e.1 e.2 = .object m) (h : ∀ k ∈ c.itemFields, m'.lookup k = m.lookup k) :
    Posted c e (.object m') := by
  have hnameField : (if c.cfg.fieldNames.nameField = "" then "name" else c.cfg.fieldNames.nameField) ∈
      c.itemFields := by
    rw [Client.itemFields]
    split_ifs <;> simp
  have hvalueField : (if c.cfg.fieldNames.valueField = "" then "value"
      else c.cfg.fieldNames.valueField) ∈ c.itemFields := by
    rw [Client.itemFields]
    split_ifs <;> simp
  rw [Posted, hm]
  constructor
  · simp only [listName, JsonPathParser.itemName]
    rw [if_neg (by decide : "name" ≠ ""), h "name" (List.mem_cons_self ..)]
  · intro n
    simp only [Client.findItem, List.findSome?_cons, h _ hnameField, h _ hvalueField]

/-- What the items posted by a run of sets are decoded to. -/
theorem answerItems_sets {c : Client} {sets : List (String × String)} {js : List Json}
    (h : List.Forall₂ (fun e j => ∃ m own, c.payload e.1 e.2 = .object m ∧
      OwnMembers c.itemFields own ∧ j = .object (Value.toJsonMembers m ++ own)) sets js) :
    ((∀ e ∈ sets, (Client.sent e.2).toJson.depth + 3 ≤ maxNestingDepth) →
      ∃ vs, answerItems js = some vs ∧ List.Forall₂ (Posted c) sets vs) ∧
    ((¬∀ e ∈ sets, (Client.sent e.2).toJson.depth + 3 ≤ maxNestingDepth) → answerItems js = none) := by
  induction h with
  | nil => exact ⟨fun _ => ⟨[], rfl, .nil⟩, fun h => absurd (fun _ he => by cases he) h⟩
  | @cons e j sets js hj _ ih =>
    obtain ⟨m, own, hm, hown, rfl⟩ := hj
    obtain ⟨hok, hdeep⟩ := answerItems_posted c e.1 e.2 hm hown
    have hcons := answerItems_append [.object (Value.toJsonMembers m ++ own)] js
    rw [List.singleton_append] at hcons
    rw [hcons, List.forall_mem_cons]
    constructor
    · rintro ⟨hfirst, hrest⟩
      obtain ⟨m', hm', hfields⟩ := hok hfirst
      obtain ⟨vs, hvs, hposted⟩ := ih.1 hrest
      rw [hm', hvs]
      exact ⟨.object m' :: vs, rfl, .cons (posted_of_lookup hm hfields) hposted⟩
    · intro hnot
      by_cases hfirst : (Client.sent e.2).toJson.depth + 3 ≤ maxNestingDepth
      · rw [ih.2 fun hrest => hnot ⟨hfirst, hrest⟩]
        cases answerItems [Json.object (Value.toJsonMembers m ++ own)] <;> rfl
      · rw [hdeep hfirst]
        rfl

theorem filterMap_posted {c : Client} {sets : List (String × String)} {vs : List Value}
    (h : List.Forall₂ (Posted c) sets vs) :
    vs.filterMap listName = (sets.map fun e => c.payload e.1 e.2).filterMap listName := by
  induction h with
  | nil => rfl
  | cons hv _ ih => rw [List.map_cons, List.filterMap_cons, List.filterMap_cons, hv.1, ih]

theorem findItem_posted {c : Client} {sets : List (String × String)} {vs : List Value}
    (h : List.Forall₂ (Posted c) sets vs) (n : String) :
    c.findItem n vs = c.findItem n (sets.map fun e => c.payload e.1 e.2) := by
  induction h with
  | nil => rfl
  | @cons e v sets vs hv _ ih =>
    rw [List.map_cons, ← List.singleton_append (l := vs), Client.findItem_append, hv.2, ih,
      ← Client.findItem_append, List.singleton_append]

/-- What an item that is posted is listed as: its value, where this is kept under `name` and is a string,
    else its name, where that is kept there. With other field names it is not listed. -/
def Client.listedAs (c : Client) (e : String × String) : Option String :=
  if c.cfg.fieldNames.valueField = "name" then
    match Client.sent e.2 with
    | .string text => some text
    | _ => none
  else if c.cfg.fieldNames.nameField = "name" then some e.1
  else none

theorem listName_payload (c : Client) (name value : String) :
    listName (c.payload name value) = c.listedAs (name, value) := by
  obtain ⟨m, hm, -, -, hlookup⟩ := payload_spec c name value
  have hat := hlookup "name"
  rw [if_neg (by simp)] at hat
  rw [hm, listName, JsonPathParser.itemName, ite_self, Client.listedAs]
  by_cases hvalue : c.cfg.fieldNames.valueField = "name"
  · rw [if_pos hvalue.symm] at hat
    rw [if_pos hvalue]
    rw [hat]
    generalize Client.sent value = v
    cases v <;> rfl
  · rw [if_neg (Ne.symm hvalue)] at hat
    rw [if_neg hvalue]
    by_cases hname : c.cfg.fieldNames.nameField = "name"
    · rw [if_pos hname.symm] at hat
      simp [hat, hname]
    · rw [if_neg (Ne.symm hname)] at hat
      simp [hat, hname]

/-- Field names under which an item is listed by its name and keeps its value elsewhere. -/
def Client.ListsByName (c : Client) : Prop :=
  c.cfg.fieldNames.nameField = "name" ∧ c.cfg.fieldNames.valueField ≠ "name" ∧
    c.cfg.fieldNames.valueField ≠ ""

section ByName

variable {c : Client} (hnames : c.ListsByName)

include hnames

theorem listedAs_eq (e : String × String) : c.listedAs e = some e.1 := by
  rw [Client.listedAs, if_neg hnames.2.1, if_pos hnames.1]

theorem findItem_payload (name value n : String) : c.findItem n [c.payload name value] =
    if name = n then some (JsonPathParser.valueToString (Client.sent value)) else none := by
  obtain ⟨hname, hvalue, hempty⟩ := hnames
  obtain ⟨m, hm, -, -, hlookup⟩ := payload_spec c name value
  have hat : m.lookup "name" = some (.string name) := by
    rw [hlookup, if_neg (by simp), if_neg hvalue.symm, if_pos hname.symm]
  have hvalueAt : m.lookup c.cfg.fieldNames.valueField = some (Client.sent value) := by
    have htype : ¬(toLower c.cfg.fieldNames.valueField = "login" ∧
        c.cfg.fieldNames.valueField = "type") := by
      rintro ⟨hlogin, htype⟩
      rw [htype] at hlogin
      exact absurd hlogin (by decide)
    rw [hlookup, if_neg htype, if_pos rfl]
  rw [hm]
  by_cases hn : name = n <;> simp [Client.findItem, hname, hempty, hat, hvalueAt, hn]

theorem filterMap_listedAs (sets : List (String × String)) :
    sets.filterMap c.listedAs = sets.map Prod.fst := by
  rw [funext (listedAs_eq hnames)]
  exact congrFun List.filterMap_eq_map sets

/-- The value of the first set for the name. -/
theorem findItem_payloads (sets : List (String × String)) (n : String) :
    c.findItem n (sets.map fun e => c.payload e.1 e.2) =
      (sets.lookup n).map fun value => JsonPathParser.valueToString (Client.sent value) := by
  induction sets with
  | nil => rfl
  | cons e sets ih =>
    rw [List.map_cons, ← List.singleton_append, Client.findItem_append, findItem_payload hnames, ih,
      List.lookup_cons]
    by_cases hn : n = e.1
    · simp [hn]
    · simp [beq_eq_false_iff_ne.mpr hn, Ne.symm hn]

/-- A name that is not listed has no item. -/
theorem findItem_eq_none {vs : List Value} {n : String} (h : n ∉ vs.filterMap listName) :
    c.findItem n vs = none := by
  rw [Client.findItem, hnames.1]
  refine List.findSome?_eq_none_iff.mpr fun v hv => ?_
  rcases v with _ | _ | _ | _ | _ | m
  case object =>
    dsimp only
    rcases hat : m.lookup "name" with _ | w
    · simp [hat]
    · rcases w with _ | _ | _ | w | _ | _
      case string =>
        have hlisted : w ∈ vs.filterMap listName :=
          List.mem_filterMap.mpr ⟨_, hv, by simp [listName, JsonPathParser.itemName, hat]⟩
        have hne : w ≠ n := by
          rintro rfl
          exact h hlisted
        simp [hat, hne]
      all_goals simp [hat]
  all_goals rfl

end ByName

theorem lookup_of_mem {k v : String} : ∀ {sets : List (String × String)},
    (sets.map Prod.fst).Nodup → (k, v) ∈ sets → sets.lookup k = some v
  | (k', v') :: sets, hnodup, h => by
    rw [List.map_cons, List.nodup_cons] at hnodup
    rw [List.lookup_cons]
    rcases List.mem_cons.mp h with heq | hmem
    · cases heq
      rw [beq_self_eq_true]
    · have hne : (k == k') = false := by
        refine beq_eq_false_iff_ne.mpr ?_
        rintro rfl
        exact hnodup.1 (List.mem_map.mpr ⟨(k, v), hmem, rfl⟩)
      rw [hne]
      exact lookup_of_mem hnodup.2 hmem

/-- Only secrets that are not there yet are set, once each, to values that come back as they went in. -/
structure SetOnce (held : List Value) (sets : List (String × String)) : Prop where
  once : (sets.map Prod.fst).Nodup
  fresh : ∀ n ∈ sets.map Prod.fst, n ∉ held.filterMap listName
  faithful : ∀ e ∈ sets, JsonPathParser.valueToString (Client.sent e.2) = e.2

/-- What the items held and those that are posted are listed as. -/
theorem filterMap_listName (c : Client) (held : List Value) (sets : List (String × String)) :
    (held ++ sets.map fun e => c.payload e.1 e.2).filterMap listName =
      held.filterMap listName ++ sets.filterMap c.listedAs := by
  rw [List.filterMap_append, List.filterMap_map]
  exact congrArg _ (List.filterMap_congr fun e _ => listName_payload c e.1 e.2)

/-- The items before and those of the sets list each name set once, and the first with it has the value
    set last. -/
def ItemsMatch (c : Client) (held : List Value) (sets : List (String × String)) : Prop :=
  ∀ n ∈ sets.map Prod.fst,
    ((held ++ sets.map fun e => c.payload e.1 e.2).filterMap listName).count n = 1 ∧
      c.findItem n (held ++ sets.map fun e => c.payload e.1 e.2) = sets.reverse.lookup n

theorem itemsMatch_iff {c : Client} (hnames : c.ListsByName) {held : List Value}
    {sets : List (String × String)} : ItemsMatch c held sets ↔ SetOnce held sets := by
  have hlisted : (held ++ sets.map fun e => c.payload e.1 e.2).filterMap listName =
      held.filterMap listName ++ sets.map Prod.fst := by
    rw [filterMap_listName, filterMap_listedAs hnames]
  have hfound {n : String} (hfresh : n ∉ held.filterMap listName) :
      c.findItem n (held ++ sets.map fun e => c.payload e.1 e.2) =
        (sets.lookup n).map fun value => JsonPathParser.valueToString (Client.sent value) := by
    rw [Client.findItem_append, findItem_eq_none hnames hfresh, findItem_payloads hnames]
    rfl
  have hreverse (hnodup : (sets.map Prod.fst).Nodup) {e : String × String} (he : e ∈ sets) :
      sets.reverse.lookup e.1 = some e.2 := by
    refine lookup_of_mem ?_ (List.mem_reverse.mpr he)
    rw [List.map_reverse, List.nodup_reverse]
    exact hnodup
  constructor
  · intro h
    have hcount : ∀ n ∈ sets.map Prod.fst, (sets.map Prod.fst).count n = 1 ∧
        (held.filterMap listName).count n = 0 := by
      intro n hn
      have hone := (h n hn).1
      have hpos := List.count_pos_iff.mpr hn
      rw [hlisted, List.count_append] at hone
      omega
    have honce : (sets.map Prod.fst).Nodup :=
      List.nodup_iff_count_eq_one.mpr fun n hn => (hcount n hn).1
    have hfresh : ∀ n ∈ sets.map Prod.fst, n ∉ held.filterMap listName :=
      fun n hn => List.count_eq_zero.mp (hcount n hn).2
    refine ⟨honce, hfresh, fun e he => ?_⟩
    have hn : e.1 ∈ sets.map Prod.fst := List.mem_map_of_mem he
    have hlast := (h e.1 hn).2
    rw [hfound (hfresh e.1 hn), hreverse honce he, lookup_of_mem honce he, Option.map_some] at hlast
    exact Option.some.inj hlast
  · rintro ⟨honce, hfresh, hfaithful⟩ n hn
    constructor
    · rw [hlisted, List.count_append, List.count_eq_zero.mpr (hfresh n hn),
        List.nodup_iff_count_eq_one.mp honce n hn]
    · obtain ⟨e, he, rfl⟩ := List.mem_map.mp hn
      rw [hfound (hfresh e.1 hn), hreverse honce he, lookup_of_mem honce he, Option.map_some,
        hfaithful e he]

/-- Where neither field is called `name`, no item that is posted is listed: the items held must list each
    name that is set already, once. -/
theorem itemsMatch_unlisted {c : Client} (hname : c.cfg.fieldNames.nameField ≠ "name")
    (hvalue : c.cfg.fieldNames.valueField ≠ "name") {held : List Value} {sets : List (String × String)} :
    ItemsMatch c held sets ↔ ∀ n ∈ sets.map Prod.fst, (held.filterMap listName).count n = 1 ∧
      c.findItem n (held ++ sets.map fun e => c.payload e.1 e.2) = sets.reverse.lookup n := by
  have hnone : sets.filterMap c.listedAs = [] := by
    refine List.filterMap_eq_nil_iff.mpr fun e _ => ?_
    rw [Client.listedAs, if_neg hvalue, if_neg hname]
  rw [ItemsMatch, filterMap_listName, hnone, List.append_nil]

/-! ### Setting secrets, then reading them -/

/-- Each secret that was set has the value set last, and is listed once. -/
def Client.CreatesOrUpdates (c : Client) {σ : Type} (net : Network σ) (jsonErr : String → GoError)
    (sets : List (String × String)) (s : σ) : Prop :=
  ∀ n ∈ sets.map Prod.fst,
    (∃ value, sets.reverse.lookup n = some value ∧
      (Http.exec net (c.getSecret jsonErr n) s).1 = .ok ⟨n, utf8 value⟩) ∧
    ∃ names, (Http.exec net (c.listSecrets jsonErr) s).1 = .ok names ∧ names.count n = 1

/-- What the server must hold before, and what the sets must be like. -/
def Client.OnlyCreates (c : Client) (held : List Json) (sets : List (String × String)) : Prop :=
  ∃ vs, answerItems held = some vs ∧
    (∀ e ∈ sets, (Client.sent e.2).toJson.depth + 3 ≤ maxNestingDepth) ∧
    (c.ListsByName → SetOnce vs sets) ∧ (¬c.ListsByName → ItemsMatch c vs sets)

theorem isSome_lookup_reverse {n : String} {sets : List (String × String)}
    (h : n ∈ sets.map Prod.fst) : ∃ value, sets.reverse.lookup n = some value := by
  rw [← List.mem_reverse, ← List.map_reverse] at h
  obtain ⟨e, he, rfl⟩ := List.mem_map.mp h
  rcases hlookup : sets.reverse.lookup e.1 with _ | value
  · exact absurd (beq_self_eq_true e.1) (by simpa using List.lookup_eq_none_iff.mp hlookup e he)
  · exact ⟨value, rfl⟩

section Reading

variable {σ : Type} {c : Client} {net : Network σ} {items : σ → List Json} (hc : c.Bitwarden)
  (hserver : KeepsItems c net items) (jsonErr : String → GoError) {sets : List (String × String)} {s s' : σ}

include hc hserver

theorem auth_of_setAll (hne : sets ≠ []) (h : Http.exec net (c.setAll sets) s = (.ok (), s')) :
    c.cfg.auth ≠ none := by
  rcases sets with _ | ⟨⟨name, value⟩, sets⟩
  · exact absurd rfl hne
  · change Http.exec net (c.setSecret name value >>= fun _ => c.setAll sets) s = _ at h
    rcases hset : Http.exec net (c.setSecret name value) s with ⟨e | u, s₁⟩
    · rw [Http.exec_bind, hset] at h
      cases h
    · exact auth_of_setSecret hc hserver hset

/-- Where the answer decodes, what is read is what its items say. -/
theorem createsOrUpdates_of_answer (hauth : c.cfg.auth ≠ none) {vs : List Value}
    (hvs : answerItems (items s) = some vs) : c.CreatesOrUpdates net jsonErr sets s ↔
      ∀ n ∈ sets.map Prod.fst, (vs.filterMap listName).count n = 1 ∧
        c.findItem n vs = sets.reverse.lookup n := by
  obtain ⟨s₁, -, hlist, -⟩ := exec_listSecrets hc hserver jsonErr hauth s
  refine forall₂_congr fun n hn => ?_
  obtain ⟨value, hvalue⟩ := isSome_lookup_reverse hn
  have hcount : (∃ names, (Http.exec net (c.listSecrets jsonErr) s).1 = .ok names ∧
      names.count n = 1) ↔ (vs.filterMap listName).count n = 1 := by
    rw [hlist vs hvs]
    simp only [Except.ok.injEq, exists_eq_left']
  simp only [hvalue, Option.some.injEq, exists_eq_left', hcount,
    getSecret_eq_ok hc hserver jsonErr hauth hvs]
  constructor
  · rintro ⟨⟨-, hfound⟩, hone⟩
    exact ⟨hone, hfound⟩
  · rintro ⟨hone, hfound⟩
    have hmem : n ∈ vs.filterMap listName := List.count_pos_iff.mp (by omega)
    exact ⟨⟨hmem, hfound⟩, hone⟩

/-- Nothing can be read from an answer that does not decode. -/
theorem answer_of_createsOrUpdates (hauth : c.cfg.auth ≠ none) (hne : sets ≠ [])
    (h : c.CreatesOrUpdates net jsonErr sets s) : ∃ vs, answerItems (items s) = some vs := by
  obtain ⟨s₁, -, -, hfails⟩ := exec_listSecrets hc hserver jsonErr hauth s
  obtain ⟨e, he⟩ := List.exists_mem_of_ne_nil sets hne
  obtain ⟨-, names, hnames, -⟩ := h e.1 (List.mem_map_of_mem he)
  rcases hvs : answerItems (items s) with _ | vs
  · obtain ⟨err, herr⟩ := hfails hvs
    rw [herr] at hnames
    cases hnames
  · exact ⟨vs, rfl⟩

/-- After sets that all succeed, a listing goes on with their names, and a name that was not held is
    read with the value that was set first. -/
theorem reads_of_sets (hnames : c.ListsByName) (hne : sets ≠ []) {vs : List Value}
    (hvs : answerItems (items s) = some vs)
    (hdepth : ∀ e ∈ sets, (Client.sent e.2).toJson.depth + 3 ≤ maxNestingDepth)
    (h : Http.exec net (c.setAll sets) s = (.ok (), s')) :
    (Http.exec net (c.listSecrets jsonErr) s').1 = .ok (vs.filterMap listName ++ sets.map Prod.fst) ∧
    ∀ n value, n ∉ vs.filterMap listName → sets.lookup n = some value →
      (Http.exec net (c.getSecret jsonErr n) s').1 =
        .ok ⟨n, utf8 (JsonPathParser.valueToString (Client.sent value))⟩ := by
  have hauth := auth_of_setAll hc hserver hne h
  obtain ⟨js, hjs, hall⟩ := items_setAll hc hserver h
  obtain ⟨ws, hws, hposted⟩ := (answerItems_sets hall).1 hdepth
  have hanswer : answerItems (items s') = some (vs ++ ws) := by
    rw [hjs, answerItems_append, hvs, hws]
    rfl
  have hlisted : (vs ++ ws).filterMap listName = vs.filterMap listName ++ sets.map Prod.fst := by
    rw [List.filterMap_append, filterMap_posted hposted, ← List.filterMap_append, filterMap_listName,
      filterMap_listedAs hnames]
  obtain ⟨s₁, -, hlist, -⟩ := exec_listSecrets hc hserver jsonErr hauth s'
  refine ⟨by rw [hlist _ hanswer, hlisted], fun n value hnew hlookup => ?_⟩
  rw [getSecret_eq_ok hc hserver jsonErr hauth hanswer, hlisted, Client.findItem_append,
    findItem_eq_none hnames hnew, Option.none_or, findItem_posted hposted, findItem_payloads hnames,
    hlookup, Option.map_some]
  exact ⟨List.mem_append_right _ (List.mem_map.mpr ⟨(n, value), mem_of_lookup hlookup, rfl⟩), rfl⟩

end Reading

/-- What is set is created or updated exactly when nothing is updated. -/
theorem createsOrUpdates_iff {cfg : VaultConfig} {σ : Type} {net : Network σ} {items : σ → List Json}
    (ht : toLower cfg.getVaultType = "bitwarden" ∨ toLower cfg.getVaultType = "vaultwarden")
    (hops : cfg.operationEntries = []) (hserver : KeepsItems (newClient cfg) net items)
    (jsonErr : String → GoError) {sets : List (String × String)} {s s' : σ}
    (hsets : Http.exec net ((newClient cfg).setAll sets) s = (.ok (), s')) :
    (newClient cfg).CreatesOrUpdates net jsonErr sets s' ↔
      sets = [] ∨ (newClient cfg).OnlyCreates (items s) sets := by
  have hc := newClient_bitwarden ht hops
  generalize newClient cfg = c at hc hserver hsets ⊢
  by_cases hempty : sets = []
  · subst hempty
    exact iff_of_true (fun n hn => by cases hn) (.inl rfl)
  have hauth := auth_of_setAll hc hserver hempty hsets
  obtain ⟨js, hjs, hall⟩ := items_setAll hc hserver hsets
  obtain ⟨hshallow, hdeep⟩ := answerItems_sets hall
  have hanswer := answerItems_append (items s) js
  rw [← hjs] at hanswer
  -- where both parts decode, the items that are read are those held and those posted
  have hmatch {vs ws : List Value} (hvs : answerItems (items s) = some vs)
      (hws : answerItems js = some ws) (hposted : List.Forall₂ (Posted c) sets ws) :
      c.CreatesOrUpdates net jsonErr sets s' ↔ ItemsMatch c vs sets := by
    rw [hvs, hws] at hanswer
    rw [createsOrUpdates_of_answer hc hserver jsonErr hauth hanswer]
    simp only [ItemsMatch, List.filterMap_append, Client.findItem_append, filterMap_posted hposted,
      findItem_posted hposted]
  constructor
  · intro h
    right
    obtain ⟨all, hall⟩ := answer_of_createsOrUpdates hc hserver jsonErr hauth hempty h
    rw [hall] at hanswer
    rcases hvs : answerItems (items s) with _ | vs
    · rw [hvs] at hanswer
      cases hanswer
    have hdepth : ∀ e ∈ sets, (Client.sent e.2).toJson.depth + 3 ≤ maxNestingDepth := by
      by_contra hnot
      rw [hvs, hdeep hnot] at hanswer
      cases hanswer
    obtain ⟨ws, hws, hposted⟩ := hshallow hdepth
    have hitems := (hmatch hvs hws hposted).mp h
    exact ⟨vs, hvs, hdepth, fun hnames => (itemsMatch_iff hnames).mp hitems, fun _ => hitems⟩
  · rintro (hnil | ⟨vs, hvs, hdepth, hby, hother⟩)
    · exact absurd hnil hempty
    · obtain ⟨ws, hws, hposted⟩ := hshallow hdepth
      rw [hmatch hvs hws hposted]
      by_cases hnames : c.ListsByName
      · exact (itemsMatch_iff hnames).mpr (hby hnames)
      · exact hother hnames

/-! ### A server that numbers its items -/

/-- Appends what is posted under an id of its own, and lists everything. -/
def collectingServer : Network (List Json)
  | .newRequest _ _, held => (none, held)
  | .oauthToken, held => (.ok "token", held)
  | .do req, held =>
    if req.method = "POST" then
      match req.body.bind fun body => Json.read body.toList with
      | some (.object ms) =>
        (.ok ⟨201, "", none⟩,
          held ++ [.object (ms ++ [("id", .string ("cipher_" ++ toString held.length))])])
      | _ => (.ok ⟨400, "", none⟩, held)
    else
      (.ok ⟨200, String.ofList (Json.object [("data", .array held), ("continuationToken", .null)]).print,
        none⟩, held)

theorem ownMembers_singleton {taken : List String} {k : String} {j : Json} (hk : k ∉ taken)
    (hj : j.toValue.isSome) (hflat : j.depth ≤ 1) : OwnMembers taken [(k, j)] where
  fresh k' hk' h := by
    rw [List.mem_singleton.mp h] at hk'
    exact hk hk'
  reads m hm := by
    rw [List.mem_singleton.mp hm]
    exact hj
  flat m hm := by
    rw [List.mem_singleton.mp hm]
    exact hflat

theorem collectingServer_keeps {c : Client} (hid : "id" ∉ c.itemFields) :
    KeepsItems c collectingServer id where
  posts _ := ⟨fun _ => rfl, fun _ => rfl, fun _ => ⟨"token", rfl⟩, fun _ => rfl⟩
  gets := ⟨fun _ => rfl, fun _ => rfl, fun _ => ⟨"token", rfl⟩, fun _ => rfl⟩
  post held req name body ms resp hmethod _ hbody hread _ _ := by
    refine ⟨[("id", .string ("cipher_" ++ toString held.length))],
      ownMembers_singleton hid rfl (Nat.zero_le _), ?_⟩
    simp only [collectingServer, hmethod, hbody, Option.bind_some, hread, ↓reduceIte, id]
  get held req hmethod _ _ := by
    have hget : ¬req.method = "POST" := by
      rw [hmethod]
      decide
    simp only [collectingServer, hget, ↓reduceIte, id, and_true]
    refine ⟨_, [("continuationToken", .null)], rfl, rfl, rfl,
      ownMembers_singleton (by decide) rfl (Nat.zero_le _), ?_⟩
    rw [String.toList_ofList, Json.read_print]

/-- A Bitwarden vault with the default operations. -/
def bitwardenVault : VaultConfig where
  type := "bitwarden"
  endpoint := "https://example.com/api/ciphers"
  auth := some { method := "bearer", headers := [("token", "t")] }
  fieldNames := { nameField := "name", valueField := "value" }

theorem bitwardenVault_type : toLower bitwardenVault.getVaultType = "bitwarden" := by decide +kernel

theorem bitwardenVault_keeps : KeepsItems (newClient bitwardenVault) collectingServer id :=
  collectingServer_keeps (by decide +kernel)

theorem bitwardenVault_listsByName : (newClient bitwardenVault).ListsByName := by
  have hfields : (newClient bitwardenVault).cfg.fieldNames = bitwardenVault.fieldNames := by
    obtain ⟨ops, hcfg⟩ := applyDefaultOperations_eq bitwardenVault.populateDefaults
    rw [newClient, hcfg]
    rfl
  rw [Client.ListsByName, hfields]
  exact ⟨rfl, by decide, by decide⟩

/-- Sets that this server accepts. -/
theorem exec_collecting (sets : List (String × String))
    (h : (Http.exec collectingServer ((newClient bitwardenVault).setAll sets) []).1.isOk = true) :
    ∃ held, Http.exec collectingServer ((newClient bitwardenVault).setAll sets) [] = (.ok (), held) := by
  rcases hexec : Http.exec collectingServer ((newClient bitwardenVault).setAll sets) [] with ⟨e | u, held⟩
  · rw [hexec] at h
    cases h
  · exact ⟨held, rfl⟩

/-- Two secrets are created. -/
theorem creates_two_secrets :
    ∃ held, Http.exec collectingServer ((newClient bitwardenVault).setAll [("a", "x"), ("b", "y")]) [] =
        (.ok (), held) ∧
      (newClient bitwardenVault).CreatesOrUpdates collectingServer GoError.new [("a", "x"), ("b", "y")]
        held := by
  obtain ⟨held, hsets⟩ := exec_collecting [("a", "x"), ("b", "y")] (by decide +kernel)
  have hiff := createsOrUpdates_iff (.inl bitwardenVault_type) rfl bitwardenVault_keeps GoError.new hsets
  refine ⟨held, hsets, hiff.mpr (.inr ⟨[], rfl, by decide +kernel, fun _ => ?_, fun hother => ?_⟩)⟩
  · exact ⟨by decide, by decide, by decide +kernel⟩
  · exact absurd bitwardenVault_listsByName hother

/-- A secret that is set again is listed twice, and keeps its first value for its reader. -/
theorem updated_secret_reads_old : KeepsItems (newClient bitwardenVault) collectingServer id ∧
    ∃ held, Http.exec collectingServer ((newClient bitwardenVault).setAll [("k", "v1"), ("k", "v2")]) [] =
        (.ok (), held) ∧
      (Http.exec collectingServer ((newClient bitwardenVault).getSecret GoError.new "k") held).1 =
        .ok ⟨"k", utf8 "v1"⟩ ∧
      (Http.exec collectingServer ((newClient bitwardenVault).listSecrets GoError.new) held).1 =
        .ok ["k", "k"] ∧
      ¬(newClient bitwardenVault).CreatesOrUpdates collectingServer GoError.new
        [("k", "v1"), ("k", "v2")] held := by
  obtain ⟨held, hsets⟩ := exec_collecting [("k", "v1"), ("k", "v2")] (by decide +kernel)
  obtain ⟨hlist, hget⟩ := reads_of_sets (newClient_bitwarden (.inl bitwardenVault_type) rfl)
    bitwardenVault_keeps GoError.new bitwardenVault_listsByName (by decide)
    (show answerItems ([] : List Json) = some [] from rfl) (by decide +kernel) hsets
  refine ⟨bitwardenVault_keeps, held, hsets, ?_, hlist, fun h => ?_⟩
  · rw [hget "k" "v1" (by decide) rfl, show JsonPathParser.valueToString (Client.sent "v1") = "v1" from
      by decide +kernel]
  obtain ⟨-, names, hnames, hone⟩ := h "k" (List.mem_cons_self ..)
  rw [hlist, Except.ok.injEq] at hnames
  subst hnames
  exact absurd hone (by decide)

end VaultsSyncer
