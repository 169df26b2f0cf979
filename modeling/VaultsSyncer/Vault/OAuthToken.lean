import VaultsSyncer.GoStd.Integers
import VaultsSyncer.GoStd.Map
import VaultsSyncer.Vault.OperationDefaults
import VaultsSyncer.Vault.Params

/-! The token cache of a client (`getOAuthToken` in `vault/client.go`). Times are in nanoseconds; a token is
    kept until five minutes before it expires, counted from when the request was answered:

        expires_in     kept for             served from the cache
        300 or less    nothing, or less     never
        3600           3300 s               up to then
        10^12          a wrapped int64      at most 2^63 ns, which is far less than 10^12 s

    So the overflow is harmless: it only ever makes the lifetime shorter (`tokenLifetime_le`). -/

namespace VaultsSyncer

open GoStd

/-- What a client keeps between the calls. -/
structure TokenCache where
  oauthToken : String := ""
  oauthExpires : ℤ := 0

/-- A call: when it starts, how its request would be answered, and when it has been. -/
structure TokenCall where
  now : ℤ
  newRequest : String → Option GoError
  exchange : Request → Except GoError Response
  later : ℤ

mutual

/-- `fmt.Sprintf("%v", v)`. -/
def formatValue : Value → String
  | .null => "<nil>"
  | .bool b => if b then "true" else "false"
  | .number f => String.ofList f.formatV
  | .string s => s
  | .array vs => "[" ++ " ".intercalate (formatElems vs) ++ "]"
  | .object ms => "map[" ++ " ".intercalate (formatMembers ms) ++ "]"

def formatElems : List Value → List String
  | [] => []
  | v :: vs => formatValue v :: formatElems vs

def formatMember : String × Value → String
  | (k, v) => k ++ ":" ++ formatValue v

def formatMembers : List (String × Value) → List String
  | [] => []
  | m :: ms => formatMember m :: formatMembers ms

end

/-- The lifetime of a token in seconds. -/
def expiresIn (data : List (String × Value)) : Float64 :=
  match data.lookup "expires_in" with
  | some (.number f) => f
  | _ => Float64.exactly false 3600 (by norm_num)

/-- `time.Duration(expiresIn-300) * time.Second`. -/
def tokenLifetime (outOfRange : Option Float64 → ℤ) (data : List (String × Value)) : ℤ :=
  wrap64 (Float64.toInt64 outOfRange
    ((expiresIn data).sub (Float64.exactly false 300 (by norm_num))) * 10 ^ 9)

/-- The parameters of a token request. -/
def tokenParams (oauth : OAuthConfig) : List (String × String) :=
  setEntries [("grant_type", "client_credentials"), ("client_id", oauth.clientID),
    ("client_secret", oauth.clientSecret), ("scope", if oauth.scope = "" then "api" else oauth.scope)]
    oauth.extraParams

namespace Client

variable (c : Client)

/-- The default OAuth token endpoint for the vault type. -/
def getDefaultTokenEndpoint : String :=
  let t := toLower c.cfg.getVaultType
  if t = "vaultwarden" then
    let baseURL := trimSuffix c.cfg.endpoint "/api/ciphers"
    let baseURL := if baseURL = c.cfg.endpoint then trimSuffix c.cfg.endpoint "/" else baseURL
    baseURL ++ "/identity/connect/token"
  else if t = "bitwarden" then
    let endpoint := trimSuffix c.cfg.endpoint "/"
    if contains endpoint "api.bitwarden.com" then "https://identity.bitwarden.com/connect/token"
    else
      let baseURL := trimSuffix endpoint "/api/ciphers"
      let baseURL := if baseURL = endpoint then endpoint else baseURL
      baseURL ++ "/identity/connect/token"
  else if t = "vault" then
    let baseURL := trimSuffix c.cfg.endpoint "/v1"
    let baseURL := if baseURL = c.cfg.endpoint then trimSuffix c.cfg.endpoint "/" else baseURL
    baseURL ++ "/v1/auth/oauth/token"
  else if t = "azure" then "https://login.microsoftonline.com/{tenant}/oauth2/v2.0/token"
  else trimSuffix c.cfg.endpoint "/" ++ "/oauth/token"

variable (jsonErr : String → GoError)

/-- The token in a response, and the response it is in. -/
def readToken (resp : Response) : Except GoError (String × List (String × Value)) :=
  match resp.readError with
  | some err => .error (.wrap "failed to read OAuth response: " err)
  | none =>
    if resp.statusCode ≠ 200 then
      .error (.new ("OAuth token request failed with status " ++ toString resp.statusCode ++ ": " ++
        resp.body))
    else match unmarshalMap resp.body with
      | none => .error (.wrap "failed to parse OAuth response: " (jsonErr resp.body))
      | some data =>
        match data.lookup "access_token" with
        | some (.string token) => .ok (token, data)
        | _ => .error (.new ("access_token not found in OAuth response: " ++
            formatValue (.object data)))

/-- The request that exchanges the credentials. -/
def tokenRequest : Except GoError Request :=
  match c.cfg.auth.bind AuthConfig.oauth with
  | none => .error (.new "OAuth config not found")
  | some oauth =>
    if oauth.clientID = "" ∨ oauth.clientSecret = "" then
      .error (.new "client_id or client_secret not configured for OAuth 2.0")
    else
      let tokenURL :=
        if oauth.tokenEndpoint = "" then c.getDefaultTokenEndpoint else oauth.tokenEndpoint
      let data := encodeParams ((tokenParams oauth).map fun e => (utf8 e.1, utf8 e.2))
      let req : Request := { method := "POST", url := tokenURL, body := some data }
      .ok (req.setHeader "Content-Type" "application/x-www-form-urlencoded")

/-- Exchanges the credentials for a token. -/
def requestToken (call : TokenCall) : Except GoError (String × List (String × Value)) :=
  match c.tokenRequest with
  | .error err => .error err
  | .ok req =>
    match call.newRequest req.url with
    | some err => .error (.wrap "failed to create OAuth token request: " err)
    | none =>
      match call.exchange req with
      | .error err =>
        .error (.wrap ("failed to exchange OAuth credentials (URL: " ++ req.url ++ "): ") err)
      | .ok resp => readToken jsonErr resp

variable (outOfRange : Option Float64 → ℤ)

/-- Returns the cached token while it is valid, else asks for one and keeps it. -/
def getOAuthToken (cache : TokenCache) (call : TokenCall) : Except GoError String × TokenCache :=
  if cache.oauthToken ≠ "" ∧ call.now < cache.oauthExpires then (.ok cache.oauthToken, cache)
  else match c.requestToken jsonErr call with
    | .error err => (.error err, cache)
    | .ok (token, data) =>
      (.ok token, { oauthToken := token, oauthExpires := call.later + tokenLifetime outOfRange data })

/-- The cache after a sequence of calls of a new client. -/
def tokenCache (calls : List TokenCall) : TokenCache :=
  calls.foldl (fun cache call => (c.getOAuthToken jsonErr outOfRange cache call).2) {}

end Client

/-! ### Lifetimes -/

/-- The lifetime that a response states: a natural number of seconds, or one hour. -/
inductive ExpiresIn (data : List (String × Value)) : ℕ → Prop
  | stated {f : Float64} {n : ℕ} (hfield : data.lookup "expires_in" = some (.number f))
      (hvalue : Float64.ofRat f.neg n = some f) (hsign : f.neg = true → n = 0) : ExpiresIn data n
  | missing (hfield : ∀ f, data.lookup "expires_in" ≠ some (.number f)) : ExpiresIn data 3600

/-- Up to 2^53 the float64 is the lifetime itself. -/
theorem val_expiresIn {data : List (String × Value)} {n : ℕ} (h : ExpiresIn data n) (hn : n ≤ 2 ^ 53) :
    (expiresIn data).val = n := by
  cases h with
  | @stated f _ hfield hvalue hsign =>
    rw [Float64.ofRat_natCast f.neg hn, Option.some.injEq] at hvalue
    have habs : f.abs = n := by rw [← hvalue, Float64.abs_exactly]
    rw [expiresIn, hfield]
    dsimp only
    rw [Float64.val, habs]
    split_ifs with hneg
    · simp [hsign hneg]
    · rfl
  | missing hfield =>
    have hdefault : expiresIn data = Float64.exactly false 3600 (by norm_num) := by
      rw [expiresIn]
      split
      · rename_i f hf
        exact absurd hf (hfield f)
      · rfl
    rw [hdefault, Float64.val, Float64.abs_exactly]
    rfl

/-- No token is kept longer than its lifetime less five minutes. -/
theorem tokenLifetime_le (outOfRange : Option Float64 → ℤ) {data : List (String × Value)} {n : ℕ}
    (h : ExpiresIn data n) : tokenLifetime outOfRange data ≤ (n - 300) * 10 ^ 9 := by
  rw [tokenLifetime]
  rcases Nat.lt_or_ge (2 ^ 53) n with hlarge | hn
  · -- whatever the duration is, it is an int64, and so below 2^63
    have hwrap := wrap64_lt (Float64.toInt64 outOfRange
      ((expiresIn data).sub (Float64.exactly false 300 (by norm_num))) * 10 ^ 9)
    omega
  · have h300 : (Float64.exactly false 300 (by norm_num)).val = (300 : ℕ) := by
      rw [Float64.val, Float64.abs_exactly]
      rfl
    obtain ⟨d, hd, htrunc⟩ :=
      Float64.trunc_sub hn (by norm_num : 300 ≤ 2 ^ 53) (val_expiresIn h hn) h300
    have hrange : -2 ^ 63 ≤ d.trunc ∧ d.trunc < 2 ^ 63 := by
      rw [htrunc]
      omega
    rw [hd, Float64.toInt64, if_pos hrange, htrunc]
    exact wrap64_le (by omega)

/-! ### Sequences of calls -/

/-- The clock does not go back, neither during a call nor between two. -/
def ClockRises (calls : List TokenCall) : Prop :=
  (calls.flatMap fun call => [call.now, call.later]).Pairwise (· ≤ ·)

section

variable (c : Client) (jsonErr : String → GoError) (outOfRange : Option Float64 → ℤ)

/-- What is in the cache is nothing, or the token of one of the calls with the expiry of its response. -/
def CachedFrom (calls : List TokenCall) (cache : TokenCache) : Prop :=
  cache.oauthToken = "" ∨ ∃ call ∈ calls, ∃ data,
    c.requestToken jsonErr call = .ok (cache.oauthToken, data) ∧
      cache.oauthExpires = call.later + tokenLifetime outOfRange data

/-- A token at `now` that has not outlived the lifetime its response states, less five minutes. -/
def FreshToken (calls : List TokenCall) (token : String) (now : ℤ) : Prop :=
  ∃ call ∈ calls, ∃ data n, c.requestToken jsonErr call = .ok (token, data) ∧ ExpiresIn data n ∧
    300 < n ∧ call.later ≤ now ∧ now < call.later + (n - 300) * 10 ^ 9

variable {c jsonErr outOfRange}

/-- One call: the cached token, an error that leaves the cache alone, or a new token. -/
theorem getOAuthToken_cases (cache : TokenCache) (call : TokenCall) :
    (cache.oauthToken ≠ "" ∧ call.now < cache.oauthExpires ∧
      c.getOAuthToken jsonErr outOfRange cache call = (.ok cache.oauthToken, cache)) ∨
    (∃ err, c.requestToken jsonErr call = .error err ∧
      c.getOAuthToken jsonErr outOfRange cache call = (.error err, cache)) ∨
    ∃ token data, c.requestToken jsonErr call = .ok (token, data) ∧
      c.getOAuthToken jsonErr outOfRange cache call =
        (.ok token, ⟨token, call.later + tokenLifetime outOfRange data⟩) := by
  rw [Client.getOAuthToken]
  split_ifs with hserved
  · exact .inl ⟨hserved.1, hserved.2, rfl⟩
  · right
    rcases c.requestToken jsonErr call with err | ⟨token, data⟩
    · exact .inl ⟨err, rfl, rfl⟩
    · exact .inr ⟨token, data, rfl, rfl⟩

theorem CachedFrom.step {calls : List TokenCall} {cache : TokenCache}
    (h : CachedFrom c jsonErr outOfRange calls cache) (call : TokenCall) :
    CachedFrom c jsonErr outOfRange (calls ++ [call])
      (c.getOAuthToken jsonErr outOfRange cache call).2 := by
  have hsame : CachedFrom c jsonErr outOfRange (calls ++ [call]) cache := by
    rcases h with hempty | ⟨b, hb, hcached⟩
    · exact .inl hempty
    · exact .inr ⟨b, List.mem_append_left _ hb, hcached⟩
  rcases getOAuthToken_cases (c := c) cache call with ⟨-, -, heq⟩ | ⟨err, -, heq⟩ | ⟨token, data, hok, heq⟩
  · rw [heq]
    exact hsame
  · rw [heq]
    exact hsame
  · rw [heq]
    exact .inr ⟨call, by simp, data, hok, rfl⟩

theorem cachedFrom_tokenCache (calls : List TokenCall) :
    CachedFrom c jsonErr outOfRange calls (c.tokenCache jsonErr outOfRange calls) := by
  induction calls using List.reverseRecOn with
  | nil => exact .inl rfl
  | append_singleton calls call ih =>
    rw [Client.tokenCache, List.foldl_append, List.foldl_cons, List.foldl_nil, ← Client.tokenCache]
    exact ih.step call

theorem ClockRises.later_le_now {calls : List TokenCall} {call b : TokenCall}
    (h : ClockRises (calls ++ [call])) (hb : b ∈ calls) : b.later ≤ call.now := by
  rw [ClockRises, List.flatMap_append, List.pairwise_append] at h
  exact h.2.2 _ (List.mem_flatMap.mpr ⟨b, hb, by simp⟩) _ (by simp)

theorem getOAuthToken_error {cache cache' : TokenCache} {call : TokenCall} {err : GoError}
    (h : c.getOAuthToken jsonErr outOfRange cache call = (.error err, cache')) : cache' = cache := by
  rcases getOAuthToken_cases (c := c) cache call with ⟨-, -, heq⟩ | ⟨err', -, heq⟩ | ⟨token, data, -, heq⟩
  · rw [heq] at h
    cases h
  · rw [heq] at h
    cases h
    rfl
  · rw [heq] at h
    cases h

/-- The call `call` after `calls`: a token that comes from the cache is a fresh one, any other has just
    been asked for, and a failure leaves the cache as it was. -/
structure CacheSafe (c : Client) (jsonErr : String → GoError) (outOfRange : Option Float64 → ℤ)
    (calls : List TokenCall) (call : TokenCall) (cache : TokenCache) : Prop where
  fresh : cache.oauthToken ≠ "" ∧ call.now < cache.oauthExpires →
    c.getOAuthToken jsonErr outOfRange cache call = (.ok cache.oauthToken, cache) ∧
      FreshToken c jsonErr calls cache.oauthToken call.now
  requested : ¬(cache.oauthToken ≠ "" ∧ call.now < cache.oauthExpires) → ∀ token cache',
    c.getOAuthToken jsonErr outOfRange cache call = (.ok token, cache') → ∃ data,
      c.requestToken jsonErr call = .ok (token, data) ∧
        cache' = ⟨token, call.later + tokenLifetime outOfRange data⟩
  unchanged : ∀ err cache', c.getOAuthToken jsonErr outOfRange cache call = (.error err, cache') →
    cache' = cache

/-- Whatever has been called before, no token is served from the cache that has outlived what its response
    allows. -/
theorem cache_safe {calls : List TokenCall} {call : TokenCall} (hclock : ClockRises (calls ++ [call]))
    (hresponses : ∀ b ∈ calls, ∀ token data, c.requestToken jsonErr b = .ok (token, data) →
      ∃ n, ExpiresIn data n) :
    CacheSafe c jsonErr outOfRange calls call (c.tokenCache jsonErr outOfRange calls) where
  unchanged := fun _ _ => getOAuthToken_error
  requested := by
    intro hstale token cache' h
    rcases getOAuthToken_cases (c := c) _ call with ⟨hne, hvalid, -⟩ | ⟨err, -, heq⟩ | ⟨token', data, hok, heq⟩
    · exact absurd ⟨hne, hvalid⟩ hstale
    · rw [heq] at h
      cases h
    · rw [heq] at h
      cases h
      exact ⟨data, hok, rfl⟩
  fresh := by
    rintro ⟨hne, hvalid⟩
    refine ⟨by rw [Client.getOAuthToken, if_pos ⟨hne, hvalid⟩], ?_⟩
    have hcached : CachedFrom c jsonErr outOfRange calls (c.tokenCache jsonErr outOfRange calls) :=
      cachedFrom_tokenCache calls
    rcases hcached with hempty | ⟨b, hb, data, hok, hexpires⟩
    · exact absurd hempty hne
    obtain ⟨n, hn⟩ := hresponses b hb _ data hok
    have hlifetime := tokenLifetime_le outOfRange hn
    have htime := hclock.later_le_now hb
    rw [hexpires] at hvalid
    exact ⟨b, hb, data, n, hok, hn, by omega, htime, by omega⟩

end

/-- The answer to a token request that says nothing about the lifetime. -/
def tokenAnswer (token : String) : Response where
  statusCode := 200
  body := String.ofList (marshal (.object [("access_token", .string token)]))

theorem readToken_tokenAnswer (jsonErr : String → GoError) (token : String) :
    Client.readToken jsonErr (tokenAnswer token) = .ok (token, [("access_token", .string token)]) := by
  have hord : (Value.object [("access_token", .string token)]).Ordered := by
    simp [Value.Ordered, Sorted, Value.OrderedMembers, Value.OrderedMember]
  have hdepth : (Value.object [("access_token", .string token)]).toJson.depth ≤ maxNestingDepth := by
    simp [Value.toJson, Value.toJsonMembers, Value.toJsonMember, Json.depth, Json.depthMembers,
      Json.depthMember, maxNestingDepth]
  simp only [Client.readToken, tokenAnswer, ne_eq, not_true_eq_false, if_false,
    unmarshalMap_marshal hord hdepth]
  rfl

/-- A client with credentials, and a call that is answered with a token for an hour. -/
def oauthClient : Client :=
  newClient { auth := some { method := "oauth2", oauth := some { clientID := "id", clientSecret := "s" } } }

def hourCall (now : ℤ) : TokenCall where
  now := now
  newRequest := fun _ => none
  exchange := fun _ => .ok (tokenAnswer "t")
  later := now

theorem requestToken_hour (jsonErr : String → GoError) (now : ℤ) :
    oauthClient.requestToken jsonErr (hourCall now) = .ok ("t", [("access_token", .string "t")]) := by
  have hauth : oauthClient.cfg.auth.bind AuthConfig.oauth =
      some { clientID := "id", clientSecret := "s" } := by
    rw [oauthClient, newClient_auth]
    rfl
  simp [Client.requestToken, Client.tokenRequest, hauth, hourCall, readToken_tokenAnswer]

theorem cache_safe_hour : CacheSafe oauthClient .new (fun _ => 0) [hourCall 0] (hourCall 1)
    (oauthClient.tokenCache .new (fun _ => 0) [hourCall 0]) := by
  refine cache_safe ?_ ?_
  · simp [ClockRises, hourCall]
  · intro b hb token data hok
    rw [List.mem_singleton.mp hb, requestToken_hour] at hok
    cases hok
    exact ⟨3600, .missing fun f hf => by cases hf⟩

end VaultsSyncer
