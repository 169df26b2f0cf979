import VaultsSyncer.Vault.OAuthToken
import VaultsSyncer.Vault.OperationDefaults
import VaultsSyncer.Vault.RoundTrip

/-! The method of the set request. The client takes it from the operation defaults of the vault type or
    from the vault's own method, and where both are empty the request goes out with an empty method,
    which net/http reads as GET. That is no write, unless no set request is sent at all:

        auth                      URL of the request    sent with an empty method
        bearer                    https://a/k           yes
        none                      https://a/k           no, there is a nil dereference before
        oauth2, credentials       https://a/k           once a token request is answered
        oauth2, no credentials    https://a/k           no
        bearer                    /k                    no, net/http has no host to send it to

    (`writesOnly_iff`). -/

namespace VaultsSyncer

open GoStd Schemes Schemes.Prog

/-! ### The method of a client -/

theorem operationConfig_newClient (cfg : VaultConfig) (op : String) :
    (newClient cfg).operationConfig op =
      (applyDefaultOperations cfg.populateDefaults).operationsOverride op := by
  rw [Client.operationConfig, newClient]

/-- An operation that the vault does not override is the default of the vault's type. -/
theorem operationConfig_of_default {cfg : VaultConfig} {op : String}
    (h : cfg.operationsOverride op = none) : (newClient cfg).operationConfig op =
      (operationDefaults cfg.getVaultType cfg.endpoint).lookup op := by
  have hpopulated : cfg.populateDefaults.operationsOverride op = none := h
  have hendpoint : cfg.populateDefaults.endpoint = cfg.endpoint := rfl
  rw [operationConfig_newClient, operationsOverride_applyDefaultOperations, hpopulated,
    VaultConfig.getVaultType_populateDefaults, hendpoint]
  cases (operationDefaults cfg.getVaultType cfg.endpoint).lookup op <;> rfl

/-- The defaults of the types that say how a secret is set. -/
theorem operationsOverride_set (v : VaultConfig) (hset : v.operationsOverride "set" = none) :
    ((newClient v).cfg.operationsOverride "set").map OperationConfig.method =
      if toLower v.getVaultType = "azure" then some "PUT"
      else if toLower v.getVaultType ∈ ["vault", "bitwarden", "vaultwarden"] then some "POST"
      else none := by
  rw [← Client.operationConfig, operationConfig_of_default hset]
  simp only [operationDefaults]
  generalize toLower v.getVaultType = t
  by_cases hazure : t = "azure"
  · rw [if_pos hazure, if_pos hazure]
    rfl
  rw [if_neg hazure, if_neg hazure]
  by_cases hvault : t = "vault"
  · rw [if_pos hvault, if_pos (by simp [hvault])]
    rfl
  rw [if_neg hvault]
  by_cases hbitwarden : t = "bitwarden" ∨ t = "vaultwarden"
  · rw [if_pos hbitwarden, if_pos (by simp [hbitwarden])]
    rfl
  · have hpost : t ∉ ["vault", "bitwarden", "vaultwarden"] := by simpa [hvault] using hbitwarden
    rw [if_neg hbitwarden, if_neg hpost]
    -- keeper has no default for `set`, and the other types have none at all
    split_ifs <;> rfl

/-- The set method of a vault that says nothing about it. -/
theorem operationMethod_set {v : VaultConfig} (hmethod : v.method = "")
    (hset : v.operationsOverride "set" = none) :
    (newClient v).operationMethod "set" =
      if toLower v.getVaultType = "azure" then "PUT"
      else if toLower v.getVaultType ∈ ["vault", "bitwarden", "vaultwarden"] then "POST" else "" := by
  have hdefaults := operationsOverride_set v hset
  have hdefault : (newClient v).defaultMethod "set" = "" := by
    obtain ⟨ops, hops⟩ := applyDefaultOperations_eq v.populateDefaults
    rw [Client.defaultMethod, if_pos rfl, newClient, hops]
    change toUpper v.method = ""
    rw [hmethod]
    rfl
  rw [Client.operationMethod, hdefault, Client.operationConfig]
  generalize (newClient v).cfg.operationsOverride "set" = op at hdefaults ⊢
  rcases op with _ | op
  · rw [Option.map_none] at hdefaults
    split_ifs at hdefaults with hazure hpost
    rw [if_neg hazure, if_neg hpost]
  · rw [Option.map_some] at hdefaults
    dsimp only
    split_ifs at hdefaults with hazure hpost
    · rw [if_pos hazure, Option.some.inj hdefaults]
      decide +kernel
    · rw [if_neg hazure, if_pos hpost, Option.some.inj hdefaults]
      decide +kernel

/-! ### What is sent -/

/-- What the client gets from the libraries: what `http.NewRequest` finds wrong with a method and a URL,
    and `http.Client.Do` with a request before it sends it; the text of a JSON error; and the int64 of a
    float64 that is out of range. -/
structure Libraries where
  newRequest : String → String → Option GoError
  refuses : Request → Option GoError
  jsonErr : String → GoError
  outOfRange : Option Float64 → ℤ

/-- A token request goes through net/http like any other. -/
structure TokenCall.ServedBy (call : TokenCall) (lib : Libraries) : Prop where
  newRequest : ∀ url, call.newRequest url = lib.newRequest "POST" url
  refused : ∀ req err, lib.refuses req = some err → call.exchange req = .error err

/-- The surroundings of a client: what comes out of net/http for a request that is not sent, and a token
    as the client has it after some calls before. The rest is open. -/
structure Client.ServedBy (c : Client) (lib : Libraries) {σ : Type} (net : Network σ) : Prop where
  newRequest : ∀ method url s, (net (.newRequest method url) s).1 = lib.newRequest method url
  refused : ∀ req err, lib.refuses req = some err → ∀ s, (net (.do req) s).1 = .error err
  oauthToken : ∀ s, ∃ calls call, (∀ b ∈ calls ++ [call], TokenCall.ServedBy b lib) ∧
    (net .oauthToken s).1 = (c.getOAuthToken lib.jsonErr lib.outOfRange
      (c.tokenCache lib.jsonErr lib.outOfRange calls) call).1

/-- Whatever the network does, every request that is sent to set a secret is a PUT or a POST, and
    `SetSecret` returns nil only after one. -/
def Client.WritesOnly (c : Client) (lib : Libraries) : Prop :=
  ∀ (σ : Type) (net : Network σ), c.ServedBy lib net → ∀ s name value,
    (∀ req, HttpCall.do req ∈ (c.setSecret name value).run.calls net s → lib.refuses req = none →
      req.method ∈ ["PUT", "POST"]) ∧
    ((Http.exec net (c.setSecret name value) s).1 = .ok () →
      ∃ req, HttpCall.do req ∈ (c.setSecret name value).run.calls net s ∧ lib.refuses req = none ∧
        req.method ∈ ["PUT", "POST"])

/-- The client asks for a token before it sends anything. -/
def Client.AsksToken (c : Client) : Prop :=
  ∃ auth, c.cfg.auth = some auth ∧ toLower auth.method = "oauth2"

/-- A token request is made and sent: the credentials are there, and net/http takes it. -/
def Client.TokenSendable (c : Client) (lib : Libraries) : Prop :=
  ∃ req, c.tokenRequest = .ok req ∧ lib.newRequest "POST" req.url = none ∧ lib.refuses req = none

/-- Nothing but a token comes from outside. -/
def tokenNetwork (token : String) : Network Unit
  | .newRequest _ _, s => (none, s)
  | .oauthToken, s => (.ok token, s)
  | .do _, s => (.ok { statusCode := 200, body := "" }, s)

/-- The request for setting a secret, up to its content type, with `token` where a token is asked for. -/
def Client.setRequest (c : Client) (token name value : String) : Except Failure Request :=
  (Http.exec (tokenNetwork token) (c.buildRequest (c.operationMethod "set")
    (c.operationEndpoint "set" name) (some (String.ofList (marshal (c.payload name value))))) ()).1

/-- Some set request can be sent: net/http takes its URL and the request with its headers, and the token
    request where it needs a token. -/
def Client.SetSendable (c : Client) (lib : Libraries) : Prop :=
  ∃ token name value req, lib.newRequest (c.operationMethod "set") (c.operationEndpoint "set" name) = none ∧
    c.setRequest token name value = .ok req ∧
    lib.refuses (req.setHeader "Content-Type" "application/json") = none ∧
    (c.AsksToken → c.TokenSendable lib)

section Sending

variable {c : Client} {lib : Libraries} {σ : Type} {net : Network σ}

theorem allCalls_http_bind {α β : Type} {P : HttpCall → Prop} {p : Http α} {f : α → Http β}
    (hp : p.run.AllCalls P) (hf : ∀ a, (f a).run.AllCalls P) : (p >>= f).run.AllCalls P := by
  rw [ExceptT.run_bind]
  refine hp.bind ?_
  rintro (e | a)
  · trivial
  · exact hf a

/-- Whatever is answered, a value that the program returns satisfies `P`. -/
def Http.Yields {α : Type} (P : α → Prop) (p : Http α) : Prop :=
  p.run.Returns (fun _ _ => True) fun r => ∀ a, r = .ok a → P a

theorem Http.Yields.bind {α β : Type} {P : α → Prop} {Q : β → Prop} {p : Http α} {f : α → Http β}
    (hp : Http.Yields P p) (hf : ∀ a, P a → Http.Yields Q (f a)) : Http.Yields Q (p >>= f) := by
  refine Returns.bind_except hp ?_ fun a ha => hf a (ha a rfl)
  intro e _ b hb
  cases hb

theorem Http.yields_pure {α : Type} {P : α → Prop} {a : α} (h : P a) : Http.Yields P (pure a) := by
  rintro b hb
  obtain rfl : a = b := Except.ok.inj hb
  exact h

theorem Http.yields_fail {α : Type} {P : α → Prop} (err : GoError) : Http.Yields P (Http.fail err) := by
  rintro b hb
  cases hb

theorem Http.yields_true {α : Type} (p : Http α) : Http.Yields (fun _ => True) p := by
  rw [Http.Yields]
  generalize p.run = q
  induction q with
  | ret r => exact fun _ _ => trivial
  | call op k ih => exact fun r _ => ih r

/-- Auth headers are added without a request, and to the same method. -/
theorem calls_addAuthHeaders (req : Request) :
    (c.addAuthHeaders req).run.AllCalls (fun op => ∀ req, op ≠ .do req) ∧
      Http.Yields (fun req' => req'.method = req.method) (c.addAuthHeaders req) := by
  rw [Client.addAuthHeaders]
  split
  · exact ⟨trivial, fun a h => by cases h⟩
  dsimp only
  have hpure (req' : Request) (h : req'.method = req.method) :
      (pure req' : Http Request).run.AllCalls (fun op => ∀ req, op ≠ .do req) ∧
        Http.Yields (fun req' => req'.method = req.method) (pure req' : Http Request) :=
    ⟨trivial, Http.yields_pure h⟩
  split_ifs
  · refine ⟨allCalls_http_bind ⟨(by rintro _ ⟨⟩), fun _ => trivial⟩ ?_,
      (Http.yields_true _).bind fun r _ => ?_⟩
    · rintro (err | token) <;> trivial
    · rcases r with err | token
      · exact Http.yields_fail _
      · exact Http.yields_pure rfl
  · split
    · exact hpure _ rfl
    · exact hpure _ rfl
  · split
    · exact hpure _ rfl
    · exact hpure _ rfl
  · split
    · exact hpure _ rfl
    · exact hpure _ rfl
  · exact hpure _ (sameCore_setHeaders _ req).1
  · exact hpure _ rfl

/-- A request is built without sending one, and has the method that was asked for. -/
theorem calls_buildRequest (method url : String) (body : Option String) :
    (c.buildRequest method url body).run.AllCalls (fun op => ∀ req, op ≠ .do req) ∧
      Http.Yields (fun req => req.method = method) (c.buildRequest method url body) := by
  set first : Request := { method := method, url := url, body := body }
  obtain ⟨hcalls, hyields⟩ := calls_addAuthHeaders (c := c) first
  have hadapt : (ExceptT.adapt Client.authFailure (c.addAuthHeaders first)).run =
      ((c.addAuthHeaders first).run >>= fun r => Prog.ret (r.mapError Client.authFailure)) := rfl
  constructor
  · refine allCalls_http_bind ⟨(by rintro _ ⟨⟩), fun _ => trivial⟩ ?_
    rintro (_ | err)
    · refine allCalls_http_bind ?_ fun _ => trivial
      rw [hadapt]
      exact hcalls.bind fun _ => trivial
    · trivial
  · refine (Http.yields_true _).bind fun r _ => ?_
    rcases r with _ | err
    · refine Http.Yields.bind (P := fun req => req.method = method) ?_ fun req hreq => ?_
      · rw [Http.Yields, hadapt, returns_bind]
        refine Returns.mono hyields ?_
        rintro (e | a) ha
        · intro b hb
          cases hb
        · exact fun b hb => Except.ok.inj hb ▸ ha a rfl
      · exact Http.yields_pure ((sameCore_setHeaders _ req).1.trans hreq)
    · exact Http.yields_fail _

theorem calls_send (req : Request) (failed : String) (allowed : List ℤ) :
    (Client.send req failed allowed).run.AllCalls (· = .do req) := by
  refine allCalls_http_bind ⟨rfl, fun _ => trivial⟩ ?_
  rintro (err | resp)
  · trivial
  · dsimp only
    split <;> trivial

/-- What is sent is what was built. -/
theorem do_mem_calls_setSecret {name value : String} {s : σ} {req : Request} :
    HttpCall.do req ∈ (c.setSecret name value).run.calls net s ↔ ∃ built s',
      Http.exec net (c.buildRequest (c.operationMethod "set") (c.operationEndpoint "set" name)
        (some (String.ofList (marshal (c.payload name value))))) s = (.ok built, s') ∧
      req = built.setHeader "Content-Type" "application/json" := by
  rw [Client.setSecret, ExceptT.run_bind, calls_bind, List.mem_append]
  have hbuild := (calls_buildRequest (c := c) (c.operationMethod "set")
    (c.operationEndpoint "set" name) (some (String.ofList (marshal (c.payload name value))))).1
  constructor
  · rintro (hreq | hreq)
    · exact absurd rfl (hbuild.mem_calls net s _ hreq req)
    · rw [Http.exec]
      generalize Prog.run net (c.buildRequest _ _ _).run s = x at hreq ⊢
      obtain ⟨e | built, s'⟩ := x
      · cases hreq
      · have hsend := allCalls_http_bind (f := fun _ => (pure () : Http Unit)) (calls_send
          (built.setHeader "Content-Type" "application/json") "failed to set secret: "
          (c.operationStatusCodes "set")) fun _ => trivial
        exact ⟨built, s', rfl, HttpCall.do.inj (hsend.mem_calls net s' _ hreq)⟩
  · rintro ⟨built, s', hexec, rfl⟩
    rw [Http.exec] at hexec
    right
    rw [hexec]
    exact List.mem_cons_self

/-- `SetSecret` returns nil only after a request that is sent. -/
theorem setSecret_sends (hserved : c.ServedBy lib net) {name value : String} {s : σ}
    (hok : (Http.exec net (c.setSecret name value) s).1 = .ok ()) :
    ∃ req, HttpCall.do req ∈ (c.setSecret name value).run.calls net s ∧ lib.refuses req = none := by
  rcases hbuild : Http.exec net (c.buildRequest (c.operationMethod "set")
    (c.operationEndpoint "set" name) (some (String.ofList (marshal (c.payload name value))))) s with
    ⟨e | built, s'⟩
  · rw [Client.setSecret, Http.exec_bind, hbuild] at hok
    cases hok
  refine ⟨_, do_mem_calls_setSecret.mpr ⟨built, s', hbuild, rfl⟩, ?_⟩
  rcases hrefused : lib.refuses (built.setHeader "Content-Type" "application/json") with _ | err
  · rfl
  · rw [Client.setSecret, Http.exec_bind, hbuild] at hok
    dsimp only at hok
    rw [Http.exec_bind, Client.send, Http.exec_bind, Http.exec_clientDo,
      hserved.refused _ _ hrefused] at hok
    cases hok

/-! ### Tokens -/

/-- Tokens come from token requests that were sent. -/
theorem tokenSendable_of_requestToken {call : TokenCall} (hcall : call.ServedBy lib)
    {x : String × List (String × Value)} (h : c.requestToken lib.jsonErr call = .ok x) :
    c.TokenSendable lib := by
  rw [Client.requestToken] at h
  rcases hreq : c.tokenRequest with err | req
  · rw [hreq] at h
    cases h
  refine ⟨req, hreq, ?_, ?_⟩
  · rcases hnew : lib.newRequest "POST" req.url with _ | err
    · rfl
    · simp only [hreq, hcall.newRequest, hnew] at h
      cases h
  · rcases hrefused : lib.refuses req with _ | err
    · rfl
    · simp only [hreq, hcall.refused req err hrefused] at h
      split at h
      · cases h
      · cases h

theorem tokenSendable_of_served (hserved : c.ServedBy lib net) {s : σ} {token : String}
    (h : (net .oauthToken s).1 = .ok token) : c.TokenSendable lib := by
  obtain ⟨calls, call, hcalls, hanswer⟩ := hserved.oauthToken s
  rw [h] at hanswer
  rcases @getOAuthToken_cases c lib.jsonErr lib.outOfRange (c.tokenCache lib.jsonErr lib.outOfRange calls)
      call with
    ⟨hne, -, -⟩ | ⟨err, -, heq⟩ | ⟨token', data, hok, -⟩
  · -- the cached token was asked for by one of the calls before
    obtain hempty | ⟨b, hb, data, hok, -⟩ :=
      @cachedFrom_tokenCache c lib.jsonErr lib.outOfRange calls
    · exact absurd hempty hne
    · exact tokenSendable_of_requestToken (hcalls b (List.mem_append_left _ hb)) hok
  · rw [heq] at hanswer
    cases hanswer
  · exact tokenSendable_of_requestToken (hcalls call (by simp)) hok

/-! ### The requests that are built -/

theorem exec_adapt {α : Type} (f : Failure → Failure) (p : Http α) (s : σ) :
    Http.exec net (ExceptT.adapt f p) s =
      ((Http.exec net p s).1.mapError f, (Http.exec net p s).2) := by
  change Prog.run net (p.run >>= fun r => Prog.ret (r.mapError f)) s = _
  rw [run_bind]
  rfl

/-- What headers are added depends on the token alone. -/
theorem exec_addAuthHeaders_token {token : String} {s : σ}
    (htoken : c.AsksToken → (net .oauthToken s).1 = .ok token) (req : Request) :
    (Http.exec net (c.addAuthHeaders req) s).1 =
      (Http.exec (tokenNetwork token) (c.addAuthHeaders req) ()).1 := by
  rw [Client.addAuthHeaders]
  split
  · rfl
  rename_i auth hauth
  dsimp only
  split_ifs with hoauth
  · rw [Http.exec_bind, Http.exec_bind, Http.exec_getOAuthToken, Http.exec_getOAuthToken,
      htoken ⟨auth, hauth, hoauth⟩]
    rfl
  · split <;> rfl
  · split <;> rfl
  · split <;> rfl
  · rfl
  · rfl

/-- So does the request that is built, where `http.NewRequest` takes it. -/
theorem exec_buildRequest_token {method url token : String} {s : σ}
    (hnew : (net (.newRequest method url) s).1 = none)
    (htoken : c.AsksToken → (net .oauthToken (net (.newRequest method url) s).2).1 = .ok token)
    (body : Option String) : (Http.exec net (c.buildRequest method url body) s).1 =
      (Http.exec (tokenNetwork token) (c.buildRequest method url body) ()).1 := by
  rw [Client.buildRequest, Http.exec_bind, Http.exec_bind, Http.exec_newRequest, Http.exec_newRequest, hnew]
  dsimp only [tokenNetwork]
  rw [Http.exec_bind, Http.exec_bind, exec_adapt, exec_adapt, exec_addAuthHeaders_token htoken]
  rcases (Http.exec (tokenNetwork token) (c.addAuthHeaders _) ()).1 with e | req
  · rfl
  · rfl

/-- Without the token that it asks for a client builds no request. -/
theorem exec_buildRequest_noToken {method url : String} {s : σ} {err : GoError} (hasks : c.AsksToken)
    (hnew : (net (.newRequest method url) s).1 = none)
    (htoken : (net .oauthToken (net (.newRequest method url) s).2).1 = .error err) (body : Option String) :
    ∃ e, (Http.exec net (c.buildRequest method url body) s).1 = .error e := by
  obtain ⟨auth, hauth, hoauth⟩ := hasks
  have hfails (req : Request) : (Http.exec net (c.addAuthHeaders req) (net (.newRequest method url) s).2).1 =
      .error (.error (.wrap "failed to get OAuth token: " err)) := by
    simp only [Client.addAuthHeaders, hauth, hoauth, ↓reduceIte]
    rw [Http.exec_bind, Http.exec_getOAuthToken, htoken]
    rfl
  rw [Client.buildRequest, Http.exec_bind, Http.exec_newRequest, hnew]
  dsimp only
  rw [Http.exec_bind, exec_adapt, hfails]
  exact ⟨_, rfl⟩

/-- A request that is built was taken by `http.NewRequest`, and had the token that it asked for. -/
theorem exec_buildRequest_ok (hserved : c.ServedBy lib net) {method url : String} {body : Option String}
    {s : σ} {req : Request} (h : (Http.exec net (c.buildRequest method url body) s).1 = .ok req) :
    lib.newRequest method url = none ∧ (c.AsksToken → c.TokenSendable lib) ∧
      ∃ token, (Http.exec (tokenNetwork token) (c.buildRequest method url body) ()).1 = .ok req := by
  rcases hnew : lib.newRequest method url with _ | err
  swap
  · rw [Client.buildRequest, Http.exec_bind, Http.exec_newRequest, hserved.newRequest, hnew] at h
    cases h
  have hnew' := (hserved.newRequest method url s).trans hnew
  by_cases hasks : c.AsksToken
  · rcases htoken : (net .oauthToken (net (.newRequest method url) s).2).1 with err | token
    · obtain ⟨e, herror⟩ := exec_buildRequest_noToken hasks hnew' htoken body
      rw [herror] at h
      cases h
    · rw [exec_buildRequest_token hnew' fun _ => htoken] at h
      exact ⟨rfl, fun _ => tokenSendable_of_served hserved htoken, token, h⟩
  · have htoken : c.AsksToken → (net .oauthToken (net (.newRequest method url) s).2).1 = .ok "" :=
      fun hasks' => absurd hasks' hasks
    rw [exec_buildRequest_token hnew' htoken] at h
    exact ⟨rfl, fun hasks' => absurd hasks' hasks, "", h⟩

/-! ### The most helpful network -/

/-- A token request that is answered with `token`, if it is sent. -/
def openCall (lib : Libraries) (token : String) : TokenCall where
  now := 0
  newRequest := lib.newRequest "POST"
  exchange := fun req => match lib.refuses req with
    | some err => .error err
    | none => .ok (tokenAnswer token)
  later := 0

/-- Every request that is sent is answered, a token request with `token`. -/
def openNetwork (c : Client) (lib : Libraries) (token : String) : Network Unit
  | .newRequest method url, s => (lib.newRequest method url, s)
  | .oauthToken, s => ((c.getOAuthToken lib.jsonErr lib.outOfRange {} (openCall lib token)).1, s)
  | .do req, s => (match lib.refuses req with
    | some err => .error err
    | none => .ok { statusCode := 200, body := "" }, s)

theorem servedBy_openNetwork (token : String) : c.ServedBy lib (openNetwork c lib token) where
  newRequest := fun _ _ _ => rfl
  refused := fun req err h s => by simp [openNetwork, h]
  oauthToken := by
    refine fun s => ⟨[], openCall lib token, ?_, rfl⟩
    rintro b hb
    obtain rfl := List.mem_singleton.mp hb
    exact ⟨fun _ => rfl, fun req err h => by simp [openCall, h]⟩

theorem oauthToken_openNetwork {token : String} (h : c.TokenSendable lib) :
    (openNetwork c lib token .oauthToken ()).1 = .ok token := by
  obtain ⟨req, hreq, hnew, hsent⟩ := h
  have hok : c.requestToken lib.jsonErr (openCall lib token) =
      .ok (token, [("access_token", .string token)]) := by
    simp [Client.requestToken, hreq, openCall, hnew, hsent, readToken_tokenAnswer]
  rw [openNetwork, Client.getOAuthToken, if_neg (by simp), hok]

/-- What can be sent is sent by some client to some network. -/
theorem exists_sent (h : c.SetSendable lib) : ∃ (token name value : String) (req : Request),
    HttpCall.do req ∈ (c.setSecret name value).run.calls (openNetwork c lib token) () ∧
      lib.refuses req = none := by
  obtain ⟨token, name, value, req, hnew, hreq, hsent, htoken⟩ := h
  refine ⟨token, name, value, _, do_mem_calls_setSecret.mpr ⟨req, (), ?_, rfl⟩, hsent⟩
  have hbuilt := @exec_buildRequest_token c Unit (openNetwork c lib token) _ _ token () hnew
    (fun hasks => oauthToken_openNetwork (htoken hasks))
    (some (String.ofList (marshal (c.payload name value))))
  exact Prod.ext (hbuilt.trans hreq) rfl

/-- Secrets are set by PUT and POST requests exactly if that is the method, or no set request can be
    sent. -/
theorem writesOnly_iff :
    c.WritesOnly lib ↔ c.operationMethod "set" ∈ ["PUT", "POST"] ∨ ¬c.SetSendable lib := by
  have hmethod {σ : Type} {net : Network σ} {name value : String} {s : σ} {req : Request}
      (h : HttpCall.do req ∈ (c.setSecret name value).run.calls net s) :
      req.method = c.operationMethod "set" := by
    obtain ⟨built, s', hexec, rfl⟩ := do_mem_calls_setSecret.mp h
    have hyields := (calls_buildRequest (c := c) (c.operationMethod "set")
      (c.operationEndpoint "set" name) (some (String.ofList (marshal (c.payload name value))))).2
    exact hyields.run net (fun _ _ => trivial) s built (congrArg Prod.fst hexec)
  constructor
  · intro hwrites
    by_contra hno
    obtain ⟨hset, hsendable⟩ := not_or.mp hno
    obtain ⟨token, name, value, req, hreq, hsent⟩ := exists_sent (not_not.mp hsendable)
    have hwrite := (hwrites Unit _ (servedBy_openNetwork token) () name value).1 req hreq hsent
    exact hset (hmethod hreq ▸ hwrite)
  · intro h σ net hserved s name value
    have hsent : ∀ req, HttpCall.do req ∈ (c.setSecret name value).run.calls net s →
        lib.refuses req = none → req.method ∈ ["PUT", "POST"] := by
      intro req hreq hrefused
      rcases h with hset | hunsent
      · exact (hmethod hreq).symm ▸ hset
      · obtain ⟨built, s', hexec, rfl⟩ := do_mem_calls_setSecret.mp hreq
        obtain ⟨hnew, htoken, token, hbuilt⟩ := exec_buildRequest_ok hserved (congrArg Prod.fst hexec)
        exact absurd ⟨token, name, value, built, hnew, hbuilt, hrefused, htoken⟩ hunsent
    refine ⟨hsent, fun hok => ?_⟩
    obtain ⟨req, hreq, hrefused⟩ := setSecret_sends hserved hok
    exact ⟨req, hreq, hrefused, hsent req hreq hrefused⟩

end Sending

end VaultsSyncer
