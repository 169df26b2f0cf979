import VaultsSyncer.Sync.Engine
import VaultsSyncer.Vault.Client

/-! What `GetSecret` returns after `SetSecret`, on a server that keeps the JSON value it finds in the
    value field and returns it unchanged.

        value                 stored as       read back as
        plain text            a string        the text
        an object or array    its tree        the tree marshalled: compact, sorted keys, float64s

    `setSecret_stores` and `getSecret_stored` are the two halves; the value comes back exactly when it
    is plain or already written the way encoding/json writes it. -/

namespace VaultsSyncer

open GoStd Schemes Schemes.Prog

/-! ### Runs of client programs -/

namespace Http

variable {σ α β : Type} (net : Network σ)

theorem exec_bind (p : Http α) (f : α → Http β) (s : σ) :
    exec net (p >>= f) s = match exec net p s with
      | (.ok a, s') => exec net (f a) s'
      | (.error e, s') => (.error e, s') := by
  simp only [exec, ExceptT.run_bind, run_bind]
  rcases (Prog.run net p.run s) with ⟨(e | a), s'⟩ <;> rfl

theorem exec_bind_ok {p : Http α} {f : α → Http β} {s s' : σ} {a : α}
    (h : exec net p s = (.ok a, s')) : exec net (p >>= f) s = exec net (f a) s' := by
  rw [exec_bind, h]

theorem exec_adapt_ok {f : Failure → Failure} {p : Http α} {s s' : σ} {a : α}
    (h : exec net p s = (.ok a, s')) : exec net (ExceptT.adapt f p) s = (.ok a, s') := by
  rw [exec] at h
  rw [exec, ExceptT.run_adapt]
  change Prog.run net (p.run >>= fun r => Prog.ret (r.mapError f)) s = _
  rw [run_bind, h]
  rfl

@[simp] theorem exec_pure (a : α) (s : σ) : exec net (pure a) s = (.ok a, s) := rfl

@[simp] theorem exec_fail (err : GoError) (s : σ) :
    exec net (fail err : Http α) s = (.error (.error err), s) := rfl

@[simp] theorem exec_newRequest (method url : String) (s : σ) :
    exec net (newRequest method url) s =
      (.ok (net (.newRequest method url) s).1, (net (.newRequest method url) s).2) := rfl

@[simp] theorem exec_getOAuthToken (s : σ) :
    exec net getOAuthToken s = (.ok (net .oauthToken s).1, (net .oauthToken s).2) := rfl

@[simp] theorem exec_clientDo (req : Request) (s : σ) :
    exec net (clientDo req) s = (.ok (net (.do req) s).1, (net (.do req) s).2) := rfl

end Http

/-! ### Requests keep their method, URL and body -/

/-- Two requests that differ in their headers only. -/
def Request.SameCore (r r' : Request) : Prop :=
  r'.method = r.method ∧ r'.url = r.url ∧ r'.body = r.body

theorem Request.SameCore.trans {r r' r'' : Request} (h : r.SameCore r') (h' : r'.SameCore r'') :
    r.SameCore r'' :=
  ⟨h'.1.trans h.1, h'.2.1.trans h.2.1, h'.2.2.trans h.2.2⟩

theorem sameCore_setHeader (req : Request) (k v : String) : req.SameCore (req.setHeader k v) :=
  ⟨rfl, rfl, rfl⟩

theorem sameCore_setHeaders : ∀ (hs : List (String × String)) (req : Request),
    req.SameCore (hs.foldl (fun req e => req.setHeader e.1 e.2) req)
  | [], _ => ⟨rfl, rfl, rfl⟩
  | e :: hs, req => (sameCore_setHeader req e.1 e.2).trans (sameCore_setHeaders hs _)

/-! ### Building and sending a request -/

/-- Surroundings in which a request can be built: `http.NewRequest` takes its method and URL, a token
    is there to be had, and neither changes what is kept. -/
structure Connects {σ κ : Type} (net : Network σ) (kept : σ → κ) (method url : String) : Prop where
  newRequest : ∀ s, (net (.newRequest method url) s).1 = none
  newRequest_kept : ∀ s, kept (net (.newRequest method url) s).2 = kept s
  oauthToken : ∀ s, ∃ token, (net .oauthToken s).1 = .ok token
  oauthToken_kept : ∀ s, kept (net .oauthToken s).2 = kept s

section Building

variable {σ κ : Type} {c : Client} {net : Network σ} {kept : σ → κ} {method url : String}

/-- A request that an allowed status answers. -/
theorem exec_send {req : Request} {failed : String} {allowed : List ℤ} {resp : Response} {s : σ}
    (hdo : (net (.do req) s).1 = .ok resp)
    (hstatus : Client.isSuccessStatus resp.statusCode allowed = true) :
    Http.exec net (Client.send req failed allowed) s = (.ok resp, (net (.do req) s).2) := by
  rw [Client.send, Http.exec_bind, Http.exec_clientDo, hdo]
  simp only [hstatus, ↓reduceIte]
  rfl

variable (hnet : Connects net kept method url)

include hnet

/-- Authentication succeeds, adds headers and leaves what is kept. -/
theorem exec_addAuthHeaders (hauth : c.cfg.auth ≠ none) (req : Request) (s : σ) :
    ∃ req' s', Http.exec net (c.addAuthHeaders req) s = (.ok req', s') ∧ req.SameCore req' ∧
      kept s' = kept s := by
  have hpure : ∀ req', req.SameCore req' → ∃ req'' s',
      Http.exec net (pure req' : Http Request) s = (.ok req'', s') ∧ req.SameCore req'' ∧
        kept s' = kept s :=
    fun req' h => ⟨req', s, rfl, h, rfl⟩
  have hsame : req.SameCore req := ⟨rfl, rfl, rfl⟩
  obtain ⟨auth, hauth⟩ := Option.ne_none_iff_exists'.mp hauth
  simp only [Client.addAuthHeaders, hauth]
  split
  · obtain ⟨token, htoken⟩ := hnet.oauthToken s
    refine ⟨_, _, ?_, sameCore_setHeader req "Authorization" ("Bearer " ++ token),
      hnet.oauthToken_kept s⟩
    rw [Http.exec_bind, Http.exec_getOAuthToken, htoken]
    rfl
  split
  · split
    · exact hpure _ (sameCore_setHeader ..)
    · exact hpure _ hsame
  split
  · split
    · exact hpure _ (sameCore_setHeader ..)
    · exact hpure _ hsame
  split
  · split
    · exact hpure _ (sameCore_setHeader ..)
    · exact hpure _ hsame
  split
  · exact hpure _ (sameCore_setHeaders ..)
  · exact hpure _ hsame

/-- A request is built as asked for. -/
theorem exec_buildRequest (hauth : c.cfg.auth ≠ none) (body : Option String) (s : σ) :
    ∃ req s', Http.exec net (c.buildRequest method url body) s = (.ok req, s') ∧
      req.method = method ∧ req.url = url ∧ req.body = body ∧ kept s' = kept s := by
  set s₁ := (net (.newRequest method url) s).2 with hs₁
  obtain ⟨req, s', hexec, ⟨hm, hu, hb⟩, hkept⟩ := exec_addAuthHeaders hnet hauth
    { method := method, url := url, body := body } s₁
  obtain ⟨hm', hu', hb'⟩ := sameCore_setHeaders c.cfg.headers req
  refine ⟨c.addCustomHeaders req, s', ?_, hm'.trans hm, hu'.trans hu, hb'.trans hb, ?_⟩
  · rw [Client.buildRequest, Http.exec_bind, Http.exec_newRequest]
    simp only [hnet.newRequest s]
    rw [Http.exec_bind_ok net (Http.exec_adapt_ok net hexec), Http.exec_pure]
  · rw [hkept, hs₁, hnet.newRequest_kept]

end Building

/-! ### The server -/

/-- A server that takes the set and get requests for one name, keeps the JSON value in the value
    field of the first and returns it to the second as `value`. `stored` says what it keeps. -/
structure StoresValue {σ : Type} (c : Client) (net : Network σ)
    (stored : σ → String → Option Json) (name : String) : Prop where
  newRequest : ∀ s, ∀ op ∈ ["set", "get"],
    (net (.newRequest (c.operationMethod op) (c.operationEndpoint op name)) s).1 = none
  newRequest_stored : ∀ s method url n, stored (net (.newRequest method url) s).2 n = stored s n
  oauthToken : ∀ s, ∃ token, (net .oauthToken s).1 = .ok token
  oauthToken_stored : ∀ s n, stored (net .oauthToken s).2 n = stored s n
  set : ∀ s req body ms j, req.method = c.operationMethod "set" →
    req.url = c.operationEndpoint "set" name → req.body = some body →
    Json.read body.toList = some (.object ms) →
    ms.lookup c.cfg.fieldNames.nameField = some (.string name) →
    ms.lookup c.cfg.fieldNames.valueField = some j →
    (∃ resp, (net (.do req) s).1 = .ok resp ∧
      Client.isSuccessStatus resp.statusCode (c.operationStatusCodes "set") = true) ∧
    stored (net (.do req) s).2 name = some j
  get : ∀ s req j, req.method = c.operationMethod "get" →
    req.url = c.operationEndpoint "get" name → req.body = none → stored s name = some j →
    ∃ resp, (net (.do req) s).1 = .ok resp ∧
      Client.isSuccessStatus resp.statusCode (c.operationStatusCodes "get") = true ∧
      resp.readError = none ∧ Json.read resp.body.toList = some (.object [("value", j)])

/-- What the get response for a stored value holds. -/
theorem unmarshal_response {body : List Char} {v : Value} (hv : v.Ordered)
    (h : Json.read body = some (.object [("value", v.toJson)])) :
    unmarshal body = if v.toJson.depth < maxNestingDepth then some (.object [("value", v)])
      else none := by
  have hdepth : (Json.object [("value", v.toJson)]).depth = 1 + v.toJson.depth := by
    simp [Json.depth, Json.depthMembers, Json.depthMember]
  have hvalue : (Json.object [("value", v.toJson)]).toValue = some (.object [("value", v)]) := by
    simp [Json.toValue, Json.toMembers, Json.toMember, toValue_toJson hv, mapOf, insertKey]
  simp only [unmarshal, h, Option.bind_eq_bind, Option.bind_some, hdepth, hvalue]
  split <;> split <;> first | rfl | omega

section Requests

variable {σ : Type} {c : Client} {net : Network σ} {stored : σ → String → Option Json}
  {name : String} (hserver : StoresValue c net stored name)

include hserver

/-- Both requests for the secret can be built. -/
theorem StoresValue.connects {op : String} (hop : op ∈ ["set", "get"]) :
    Connects net stored (c.operationMethod op) (c.operationEndpoint op name) where
  newRequest s := hserver.newRequest s op hop
  newRequest_kept s := funext fun n => hserver.newRequest_stored s _ _ n
  oauthToken := hserver.oauthToken
  oauthToken_kept s := funext fun n => hserver.oauthToken_stored s n

/-- The set request leaves the tree of its value field under the name. -/
theorem setSecret_stores (hauth : c.cfg.auth ≠ none) (hname : c.cfg.fieldNames.nameField = "name")
    (hvalue : c.cfg.fieldNames.valueField = "value") (value : String) (s : σ) :
    ∃ s', Http.exec net (c.setSecret name value) s = (.ok (), s') ∧
      stored s' name = some ((Client.jsonData value).getD (.string value)).toJson := by
  set v := (Client.jsonData value).getD (.string value) with hv
  have hpayload : c.payload name value = .object [("name", .string name), ("value", v)] := by
    have hlogin : toLower "value" ≠ "login" := by decide +kernel
    have hlt : ¬"value" < "name" := by decide +kernel
    simp only [Client.payload, hname, hvalue, hlogin, ↓reduceIte, ← hv, insertKey, hlt]
    rfl
  have hread : Json.read (marshal (c.payload name value)) =
      some (.object [("name", .string name), ("value", v.toJson)]) := by
    rw [marshal, Json.read_print, hpayload]
    rfl
  obtain ⟨req, s₁, hbuild, hm, hu, hb, -⟩ := exec_buildRequest
    (hserver.connects (List.mem_cons_self ..)) hauth
    (some (String.ofList (marshal (c.payload name value)))) s
  obtain ⟨⟨resp, hdo, hstatus⟩, hstored⟩ := hserver.set s₁
    (req.setHeader "Content-Type" "application/json") _ _ v.toJson hm hu hb
    (by rw [String.toList_ofList]; exact hread) (by rw [hname]; rfl) (by rw [hvalue]; rfl)
  refine ⟨_, ?_, hstored⟩
  rw [Client.setSecret, Http.exec_bind_ok net hbuild, Http.exec_bind_ok net (exec_send hdo hstatus),
    Http.exec_pure]

/-- The get request returns what is stored, or fails on a value nested too deep. -/
theorem getSecret_stored (jsonErr : String → GoError) (hauth : c.cfg.auth ≠ none)
    (ht : toLower c.cfg.getVaultType = "generic")
    (hparser : (c.operationConfig "get").bind OperationConfig.responseParser = none)
    {v : Value} (hv : v.Ordered) {s : σ} (hs : stored s name = some v.toJson) :
    if v.toJson.depth < maxNestingDepth then
      (Http.exec net (c.getSecret jsonErr name) s).1 =
        .ok ⟨name, utf8 (JsonPathParser.valueToString v)⟩
    else ∃ err, (Http.exec net (c.getSecret jsonErr name) s).1 = .error (.error err) := by
  have hget : c.getSecret jsonErr name = c.getSecretByOperation jsonErr name := by
    simp [Client.getSecret, ht]
  have hop : c.operationParser "get" = getParserForVaultType c.cfg.getVaultType := by
    simp [Client.operationParser, hparser]
  obtain ⟨req, s₁, hbuild, hm, hu, hb, hstored⟩ := exec_buildRequest
    (hserver.connects (by simp : "get" ∈ ["set", "get"])) hauth none s
  obtain ⟨resp, hdo, hstatus, hreadAll, hbody⟩ := hserver.get s₁ req _ hm hu hb ((congrFun hstored name).trans hs)
  have hok : ∀ text, (getParserForVaultType c.cfg.getVaultType).parseGetValue jsonErr resp.body = .ok text →
      (Http.exec net (c.getSecret jsonErr name) s).1 = .ok ⟨name, utf8 text⟩ := by
    intro text htext
    rw [hget, Client.getSecretByOperation, Http.exec_bind_ok net hbuild,
      Http.exec_bind_ok net (exec_send hdo hstatus)]
    simp only [Client.readAll, hreadAll, hop]
    rw [Http.exec_bind_ok net (Http.exec_pure net resp.body _), htext, Http.exec_pure]
  have herr : ∀ err, (getParserForVaultType c.cfg.getVaultType).parseGetValue jsonErr resp.body = .error err →
      (Http.exec net (c.getSecret jsonErr name) s).1 =
        .error (.error (.wrap "failed to parse get response: " err)) := by
    intro err herr
    rw [hget, Client.getSecretByOperation, Http.exec_bind_ok net hbuild,
      Http.exec_bind_ok net (exec_send hdo hstatus)]
    simp only [Client.readAll, hreadAll, hop]
    rw [Http.exec_bind_ok net (Http.exec_pure net resp.body _), herr, Http.exec_fail]
  have hunmarshal := unmarshal_response hv hbody
  split
  · rename_i hdepth
    rw [if_pos hdepth] at hunmarshal
    exact hok _ (JsonPathParser.parseGetValue_generic jsonErr ht hunmarshal)
  · rename_i hdepth
    rw [if_neg hdepth] at hunmarshal
    refine ⟨_, herr (.wrap "failed to parse JSON response: " (jsonErr resp.body)) ?_⟩
    rw [JsonPathParser.parseGetValue, unmarshalMap, hunmarshal]

end Requests

/-! ### Values that look like JSON -/

/-- A blank in front of a text is skipped by the JSON reader, or the text does not read. -/
theorem isSpace_or_beginValue {d : Char} (h : isUnicodeSpace d = true) :
    Json.isSpace d = true ∨ Json.beginValue [] d = none := by
  by_cases hascii : d.toNat < 128
  · have hall : ∀ n < 128, isUnicodeSpace (Char.ofNat n) = true →
        Json.isSpace (Char.ofNat n) = true ∨ (Json.beginValue [] (Char.ofNat n)).isNone := by
      decide +kernel
    have hd := hall d.toNat hascii
    rw [Char.ofNat_toNat] at hd
    exact (hd h).imp_right Option.isNone_iff_eq_none.mp
  · have hne : ∀ e : Char, e.toNat < 128 → d ≠ e := by
      rintro e he rfl
      exact hascii he
    have hdigit : d.isDigit = false := by
      by_contra hd
      have hval : ¬d.val.toNat < 128 := hascii
      rw [Bool.not_eq_false] at hd
      simp only [Char.isDigit, ge_iff_le, Bool.and_eq_true, decide_eq_true_eq,
        UInt32.le_iff_toNat_le] at hd
      have h57 : ('9' : Char).val.toNat = 57 := rfl
      omega
    right
    simp [Json.beginValue, hdigit, hne '{' (by decide), hne '[' (by decide), hne '"' (by decide),
      hne 't' (by decide), hne 'f' (by decide), hne 'n' (by decide), hne '-' (by decide)]

/-- What is sent as JSON is an array or an object, which marshals into text. -/
theorem jsonData_spec {value : String} {g : Value} (h : Client.jsonData value = some g) :
    g.Ordered ∧ JsonPathParser.valueToString g = String.ofList (marshal g) := by
  rw [Client.jsonData] at h
  split at h
  · rename_i hopen
    obtain ⟨c, w, r, hc, htext, hw⟩ : ∃ c w r, (c = '{' ∨ c = '[') ∧ value.toList = w ++ c :: r ∧
        ∀ d ∈ w, isUnicodeSpace d = true := by
      rcases hopen with hopen | hopen
      · obtain ⟨w, r, htext, hw⟩ := @eq_append_of_hasPrefix_trimSpace value '{' hopen
        exact ⟨'{', w, r, .inl rfl, htext, hw⟩
      · obtain ⟨w, r, htext, hw⟩ := @eq_append_of_hasPrefix_trimSpace value '[' hopen
        exact ⟨'[', w, r, .inr rfl, htext, hw⟩
    simp only [unmarshal, Option.bind_eq_bind, Option.bind_eq_some_iff] at h
    obtain ⟨j, hread, h⟩ := h
    split at h
    · refine ⟨ordered_toValue h, ?_⟩
      rw [htext] at hread
      have hcomp := Json.composite_of_read (fun d hd => isSpace_or_beginValue (hw d hd)) hc hread
      rcases j with _ | _ | _ | _ | js | ms
      case array =>
        rw [Json.toValue, Option.map_eq_some_iff] at h
        obtain ⟨vs, -, rfl⟩ := h
        rfl
      case object =>
        rw [Json.toValue, Option.map_eq_some_iff] at h
        obtain ⟨vs, -, rfl⟩ := h
        rfl
      all_goals exact absurd hcomp id
    · cases h
  · cases h

/-! ### Setting a secret, then getting it -/

/-- What a value comes back as: itself, or what `json.Marshal` writes for the array or object it
    holds; nothing when the answer around it is nested too deep. -/
def readBack (value : String) : Option String :=
  match Client.jsonData value with
  | none => some value
  | some g => if g.toJson.depth < maxNestingDepth then some (String.ofList (marshal g)) else none

/-- No operation is filled in for a vault of type generic. -/
theorem newClient_cfg {cfg : VaultConfig} (h : toLower cfg.getVaultType = "generic") :
    (newClient cfg).cfg = { cfg.populateDefaults with operations := some cfg.operationEntries } := by
  simp only [newClient, applyDefaultOperations, operationDefaults, h,
    VaultConfig.getVaultType_populateDefaults]
  rfl

section RoundTrip

variable {σ : Type} {cfg : VaultConfig} {net : Network σ} {stored : σ → String → Option Json}
  {name : String} (jsonErr : String → GoError)

/-- The value a secret is read back with after it was set. -/
theorem getSecret_after_setSecret (hserver : StoresValue (newClient cfg) net stored name)
    (ht : toLower cfg.getVaultType = "generic") (hauth : cfg.auth ≠ none)
    (hname : cfg.fieldNames.nameField = "name") (hvalue : cfg.fieldNames.valueField = "value")
    (hparser : (cfg.operationsOverride "get").bind OperationConfig.responseParser = none)
    (value : String) (s : σ) :
    ∃ s', Http.exec net ((newClient cfg).setSecret name value) s = (.ok (), s') ∧
      (∀ v, readBack value = some v →
        (Http.exec net ((newClient cfg).getSecret jsonErr name) s').1 = .ok ⟨name, utf8 v⟩) ∧
      (readBack value = none → ∃ err,
        (Http.exec net ((newClient cfg).getSecret jsonErr name) s').1 = .error (.error err)) := by
  have hcfg := newClient_cfg ht
  have hauth' : (newClient cfg).cfg.auth ≠ none := by rw [hcfg]; exact hauth
  have ht' : toLower (newClient cfg).cfg.getVaultType = "generic" := by
    rw [hcfg]
    exact (congrArg toLower (VaultConfig.getVaultType_populateDefaults cfg)).trans ht
  have hparser' : ((newClient cfg).operationConfig "get").bind OperationConfig.responseParser =
      none := by
    rw [Client.operationConfig, hcfg]; exact hparser
  obtain ⟨s', hset, hstored⟩ := setSecret_stores hserver hauth' (by rw [hcfg]; exact hname)
    (by rw [hcfg]; exact hvalue) value s
  refine ⟨s', hset, ?_⟩
  rw [readBack]
  rcases hdata : Client.jsonData value with _ | g
  · rw [hdata, Option.getD_none] at hstored
    have hflat : (Value.string value).toJson.depth < maxNestingDepth := by
      change 0 < 10000
      decide
    have hget := getSecret_stored hserver jsonErr hauth' ht' hparser'
      (v := .string value) trivial hstored
    rw [if_pos hflat] at hget
    simp only [Option.some.injEq, forall_eq', reduceCtorEq, false_implies, and_true]
    exact hget
  · rw [hdata, Option.getD_some] at hstored
    obtain ⟨hordered, hstring⟩ := jsonData_spec hdata
    have hget := getSecret_stored hserver jsonErr hauth' ht' hparser' hordered hstored
    rw [hstring] at hget
    by_cases hdepth : g.toJson.depth < maxNestingDepth
    · rw [if_pos hdepth] at hget
      simp only [hdepth, ↓reduceIte, Option.some.injEq, forall_eq', reduceCtorEq, false_implies,
        and_true]
      exact hget
    · rw [if_neg hdepth] at hget
      simp only [hdepth, ↓reduceIte, reduceCtorEq, false_implies, implies_true, true_and,
        forall_const]
      exact hget

/-- What `GetSecret` returns after `SetSecret`: the value read back, and exactly the value that was
    set when that is the one read back. -/
theorem get_after_set (hserver : StoresValue (newClient cfg) net stored name)
    (ht : toLower cfg.getVaultType = "generic") (hauth : cfg.auth ≠ none)
    (hname : cfg.fieldNames.nameField = "name") (hvalue : cfg.fieldNames.valueField = "value")
    (hparser : (cfg.operationsOverride "get").bind OperationConfig.responseParser = none)
    (value : String) (s : σ) :
    let afterSet := Http.exec net ((newClient cfg).setSecret name value) s
    let got := (Http.exec net ((newClient cfg).getSecret jsonErr name) afterSet.2).1
    afterSet.1 = .ok () ∧
    (∀ v, readBack value = some v → got = .ok ⟨name, utf8 v⟩) ∧
    (readBack value = none → ∃ err, got = .error (.error err)) ∧
    (got = .ok ⟨name, utf8 value⟩ ↔ readBack value = some value) ∧
    (readBack value = some value → ∀ secret, got = .ok secret →
      hashString secret.value = hashString (utf8 value)) := by
  intro afterSet got
  obtain ⟨s', hset, hsome, hnone⟩ :=
    getSecret_after_setSecret jsonErr hserver ht hauth hname hvalue hparser value s
  have hafter : afterSet = (.ok (), s') := hset
  have hgot : got = (Http.exec net ((newClient cfg).getSecret jsonErr name) s').1 := by
    rw [show got = (Http.exec net ((newClient cfg).getSecret jsonErr name) afterSet.2).1 from rfl, hafter]
  have hok : ∀ v, readBack value = some v → got = .ok ⟨name, utf8 v⟩ := by
    intro v hv
    rw [hgot]
    exact hsome v hv
  have herr : readBack value = none → ∃ err, got = .error (.error err) := by
    intro hv
    rw [hgot]
    exact hnone hv
  refine ⟨by rw [hafter], hok, herr, ⟨fun h => ?_, hok value⟩, fun hv secret h => ?_⟩
  · rcases hv : readBack value with _ | v
    · obtain ⟨err, he⟩ := herr hv
      rw [he] at h
      cases h
    · have hsame := (hok v hv).symm.trans h
      rw [Except.ok.injEq, Secret.mk.injEq] at hsame
      rw [utf8_injective hsame.2]
  · rw [hok value hv] at h
    cases h
    rfl

end RoundTrip

/-! ### A server for one endpoint -/

/-- Keeps the value field of a request with a body under the request's URL, and answers a request
    without a body with what it keeps there. -/
def keepingServer : Network (List (String × Json))
  | .newRequest _ _, kept => (none, kept)
  | .oauthToken, kept => (.ok "token", kept)
  | .do req, kept =>
    match req.body with
    | some body =>
      match Json.read body.toList with
      | some (.object ms) =>
        match ms.lookup "value" with
        | some j => (.ok ⟨200, "", none⟩, (req.url, j) :: kept)
        | none => (.ok ⟨400, "", none⟩, kept)
      | _ => (.ok ⟨400, "", none⟩, kept)
    | none =>
      match kept.lookup req.url with
      | some j => (.ok ⟨200, String.ofList (Json.object [("value", j)]).print, none⟩, kept)
      | none => (.ok ⟨404, "", none⟩, kept)

/-- It stores values for every client that sets and gets a secret at one URL. -/
theorem keepingServer_stores {c : Client} {name : String}
    (hurl : c.operationEndpoint "set" name = c.operationEndpoint "get" name)
    (hvalue : c.cfg.fieldNames.valueField = "value")
    (hset : Client.isSuccessStatus 200 (c.operationStatusCodes "set") = true)
    (hget : Client.isSuccessStatus 200 (c.operationStatusCodes "get") = true) :
    StoresValue c keepingServer (fun kept n => kept.lookup (c.operationEndpoint "get" n)) name where
  newRequest _ _ _ := rfl
  newRequest_stored _ _ _ _ := rfl
  oauthToken _ := ⟨"token", rfl⟩
  oauthToken_stored _ _ := rfl
  set kept req body ms j _ hu hb hread _ hj := by
    rw [hvalue] at hj
    have hdo : keepingServer (.do req) kept = (.ok ⟨200, "", none⟩, (req.url, j) :: kept) := by
      simp only [keepingServer, hb, hread, hj]
    rw [hdo]
    exact ⟨⟨_, rfl, hset⟩, by rw [hu, hurl]; simp⟩
  get kept req j _ hu hb hj := by
    rw [← hu] at hj
    refine ⟨⟨200, String.ofList (Json.object [("value", j)]).print, none⟩, ?_, hget, rfl, ?_⟩
    · simp only [keepingServer, hb, hj]
    · rw [String.toList_ofList, Json.read_print]

/-- A generic vault with the default operations. -/
def genericVault : VaultConfig where
  type := "generic"
  endpoint := "https://example.com"
  method := "PUT"
  auth := some { method := "bearer", headers := [("token", "t")] }
  fieldNames := { nameField := "name", valueField := "value" }

theorem genericVault_type : toLower genericVault.getVaultType = "generic" := by decide +kernel

theorem genericVault_stores (name : String) :
    StoresValue (newClient genericVault) keepingServer
      (fun kept n => kept.lookup ((newClient genericVault).operationEndpoint "get" n)) name := by
  have hnone : ∀ op, (newClient genericVault).operationConfig op = none := by
    intro op
    rw [Client.operationConfig, newClient_cfg genericVault_type]
    rfl
  refine keepingServer_stores ?_ ?_ ?_ ?_
  · simp only [Client.operationEndpoint, hnone, true_or, or_true, ↓reduceIte]
  · rw [newClient_cfg genericVault_type]
    rfl
  all_goals
    rw [Client.operationStatusCodes, hnone]
    decide

/-- An object with blanks, and the same object as encoding/json writes it. -/
def spaced : String := "\x7b \"a\": \"b\" \x7d"

def compact : String := "\x7b\"a\":\"b\"\x7d"

theorem readBack_spaced : readBack spaced = some compact := by decide +kernel

theorem genericVault_auth : genericVault.auth ≠ none := Option.some_ne_none _

theorem get_after_set_generic :
    (Http.exec keepingServer ((newClient genericVault).getSecret GoError.new "db")
      (Http.exec keepingServer ((newClient genericVault).setSecret "db" spaced) []).2).1 =
        .ok ⟨"db", utf8 compact⟩ := by
  have hget := get_after_set GoError.new (genericVault_stores "db") genericVault_type
    genericVault_auth rfl rfl rfl spaced []
  exact hget.2.1 compact readBack_spaced

/-- An object with blanks comes back without them, and with another checksum. -/
theorem spaced_object_changes :
    StoresValue (newClient genericVault) keepingServer
      (fun kept n => kept.lookup ((newClient genericVault).operationEndpoint "get" n)) "db" ∧
    ∃ kept, Http.exec keepingServer ((newClient genericVault).setSecret "db" spaced) [] = (.ok (), kept) ∧
      (Http.exec keepingServer ((newClient genericVault).getSecret GoError.new "db") kept).1 =
        .ok ⟨"db", utf8 compact⟩ ∧
      utf8 compact ≠ utf8 spaced ∧ hashString (utf8 compact) ≠ hashString (utf8 spaced) := by
  obtain ⟨kept, hset, hget, -⟩ := getSecret_after_setSecret GoError.new (genericVault_stores "db")
    genericVault_type genericVault_auth rfl rfl rfl spaced []
  have hback := hget compact readBack_spaced
  exact ⟨genericVault_stores "db", kept, hset, hback, by decide +kernel, by decide +kernel⟩

end VaultsSyncer
