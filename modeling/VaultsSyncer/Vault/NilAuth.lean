import VaultsSyncer.Vault.Backend

/-! When does a client dereference a nil `Auth`? As soon as it has a request to add headers to. So a
    client without `Auth` is harmless only as long as `http.NewRequest` turns down the method or the
    URL of every request it starts with (`neverPanics_perform_iff`). -/

namespace VaultsSyncer

open GoStd Schemes Schemes.Prog

/-- What the calls of a client can be answered: `http.NewRequest` looks at the method and the URL
    alone, and the network may answer anything. -/
def Answers (newRequest : String → String → Option GoError) : (op : HttpCall) → HttpCall.Ans op → Prop
  | .newRequest method url, r => r = newRequest method url
  | _, _ => True

theorem exists_answer (newRequest : String → String → Option GoError) (op : HttpCall) :
    ∃ r, Answers newRequest op r := by
  cases op with
  | newRequest method url => exact ⟨_, rfl⟩
  | oauthToken => exact ⟨.ok "", trivial⟩
  | «do» req => exact ⟨.ok { statusCode := 200, body := "" }, trivial⟩

/-- Whatever the network answers, the program dereferences no nil pointer. -/
def NeverPanics {α : Type} (newRequest : String → String → Option GoError) (p : Http α) : Prop :=
  p.run.Returns (Answers newRequest) (· ≠ .error .nilDereference)

section Rules

variable {α β : Type} {newRequest : String → String → Option GoError}

theorem neverPanics_bind (p : Http α) (k : α → Http β) :
    NeverPanics newRequest (p >>= k) ↔ p.run.Returns (Answers newRequest) fun r => match r with
      | .ok a => NeverPanics newRequest (k a)
      | .error e => e ≠ .nilDereference := by
  rw [NeverPanics, ExceptT.run_bind, returns_bind]
  constructor <;> refine fun h => h.mono ?_
  · rintro (e | a) ha
    · intro he
      exact ha (by rw [he])
    · exact ha
  · rintro (e | a) ha
    · intro he
      exact ha (by injection he)
    · exact ha

theorem NeverPanics.bind {p : Http α} {k : α → Http β} (hp : NeverPanics newRequest p)
    (hk : ∀ a, NeverPanics newRequest (k a)) : NeverPanics newRequest (p >>= k) := by
  refine Returns.bind_except hp ?_ fun a _ => hk a
  intro e he hnil
  exact he (by injection hnil with hnil; rw [hnil])

theorem neverPanics_pure (a : α) : NeverPanics newRequest (pure a : Http α) := by
  intro h
  cases h

theorem neverPanics_fail (err : GoError) : NeverPanics newRequest (Http.fail err : Http α) := by
  intro h
  cases h

theorem neverPanics_newRequest (method url : String) :
    NeverPanics newRequest (Http.newRequest method url) := by
  intro r _ h
  cases h

theorem neverPanics_getOAuthToken : NeverPanics newRequest Http.getOAuthToken := by
  intro r _ h
  cases h

theorem neverPanics_clientDo (req : Request) : NeverPanics newRequest (Http.clientDo req) := by
  intro r _ h
  cases h

/-- What is logged leaves the rest as it is. -/
theorem neverPanics_logged_bind (p : Http Unit) (k : Unit → Http β) :
    NeverPanics newRequest (logged p >>= k) ↔
      NeverPanics newRequest p ∧ NeverPanics newRequest (k ()) := by
  have hlogged : (logged p).run = (p.run >>= fun r => match r with
      | .ok a => pure (.ok a)
      | .error (.error _) => pure (.ok ())
      | .error .nilDereference => pure (.error .nilDereference)) := by
    rw [logged]
    change (p.run >>= _) = _
    refine congrArg (p.run >>= ·) (funext fun r => ?_)
    rcases r with (err | _) | a <;> rfl
  rw [neverPanics_bind, hlogged, returns_bind]
  constructor
  · intro h
    have hp : NeverPanics newRequest p := by
      refine h.mono ?_
      rintro ((err | _) | a) hr hnil
      · cases hnil
      · exact hr rfl
      · cases hnil
    refine ⟨hp, ?_⟩
    obtain ⟨r, hnil, hr⟩ := (Returns.and hp h).exists (exists_answer newRequest)
    rcases r with (err | _) | a
    · exact hr
    · exact absurd rfl hnil
    · exact hr
  · rintro ⟨hp, hk⟩
    refine Returns.mono hp ?_
    rintro ((err | _) | a) hnil
    · exact hk
    · exact absurd rfl hnil
    · exact hk

end Rules

/-! ### Clients -/

/-- The method and the URL of the first request of an operation. -/
def Client.firstRequest (c : Client) : VaultOp → String × String
  | .testConnection => ("GET", trimSuffix c.cfg.endpoint "/")
  | .listSecrets => (c.operationMethod "list", c.operationEndpoint "list" "")
  | .getSecret name =>
    if toLower c.cfg.getVaultType = "vaultwarden" ∨ toLower c.cfg.getVaultType = "bitwarden" then
      (c.operationMethod "list", c.operationEndpoint "list" "")
    else (c.operationMethod "get", c.operationEndpoint "get" name)
  | .setSecret name _ => (c.operationMethod "set", c.operationEndpoint "set" name)
  | .deleteSecret name => (c.operationMethod "delete", c.operationEndpoint "delete" name)

section Clients

variable {newRequest : String → String → Option GoError} {c : Client} {α : Type}

theorem neverPanics_addAuthHeaders (h : c.cfg.auth ≠ none) (req : Request) :
    NeverPanics newRequest (c.addAuthHeaders req) := by
  obtain ⟨auth, hauth⟩ := Option.ne_none_iff_exists'.mp h
  simp only [Client.addAuthHeaders, hauth]
  generalize toLower auth.method = m
  split_ifs
  · refine neverPanics_getOAuthToken.bind ?_
    rintro (err | token)
    · exact neverPanics_fail _
    · exact neverPanics_pure _
  · split <;> exact neverPanics_pure _
  · split <;> exact neverPanics_pure _
  · split <;> exact neverPanics_pure _
  · exact neverPanics_pure _
  · exact neverPanics_pure _

theorem neverPanics_adapt {p : Http α} (hp : NeverPanics newRequest p) :
    NeverPanics newRequest (ExceptT.adapt Client.authFailure p) := by
  change Returns _ _ (p.run >>= fun r => Prog.ret (r.mapError Client.authFailure))
  rw [returns_bind]
  refine Returns.mono hp ?_
  rintro ((err | _) | a) hnil h
  · cases h
  · exact hnil rfl
  · cases h

theorem neverPanics_buildRequest (h : c.cfg.auth ≠ none) (method url : String) (body : Option String) :
    NeverPanics newRequest (c.buildRequest method url body) := by
  refine (neverPanics_newRequest method url).bind ?_
  rintro (_ | err)
  · exact (neverPanics_adapt (neverPanics_addAuthHeaders h _)).bind fun _ => neverPanics_pure _
  · exact neverPanics_fail _

/-- Without `Auth`, it all depends on `http.NewRequest`. -/
theorem neverPanics_buildRequest_bind (h : c.cfg.auth = none) (method url : String)
    (body : Option String) (k : Request → Http α) :
    NeverPanics newRequest (c.buildRequest method url body >>= k) ↔ newRequest method url ≠ none := by
  rw [neverPanics_bind, Client.buildRequest, ExceptT.run_bind, returns_bind]
  change (∀ r, r = newRequest method url → _) ↔ _
  rw [forall_eq]
  rcases newRequest method url with _ | err
  · simp only [Client.addAuthHeaders, h, ne_eq, not_true, iff_false]
    intro hp
    exact hp rfl
  · simp only [ne_eq, reduceCtorEq, not_false_eq_true, iff_true]
    intro hp
    cases hp

theorem neverPanics_send (req : Request) (failed : String) (allowed : List ℤ) :
    NeverPanics newRequest (Client.send req failed allowed) := by
  refine (neverPanics_clientDo req).bind ?_
  rintro (err | resp)
  · exact neverPanics_fail _
  · dsimp only
    split
    · exact neverPanics_pure _
    · exact neverPanics_fail _

theorem neverPanics_readAll (resp : Response) : NeverPanics newRequest (Client.readAll resp) := by
  rw [Client.readAll]
  split
  · exact neverPanics_fail _
  · exact neverPanics_pure _

/-- A request is built and sent, and the answer is used. -/
theorem neverPanics_exchange (h : c.cfg.auth ≠ none) {method url : String} {body : Option String}
    {prepare : Request → Request} {failed : String} {allowed : List ℤ} {k : Response → Http α}
    (hk : ∀ resp, NeverPanics newRequest (k resp)) :
    NeverPanics newRequest (c.buildRequest method url body >>= fun req =>
      Client.send (prepare req) failed allowed >>= k) :=
  (neverPanics_buildRequest h _ _ _).bind fun _ => (neverPanics_send _ _ _).bind hk

variable (jsonErr : String → GoError)

theorem neverPanics_testConnection (h : c.cfg.auth ≠ none) :
    NeverPanics newRequest c.testConnection := by
  rw [Client.testConnection]
  refine (neverPanics_buildRequest h _ _ _).bind fun req => (neverPanics_clientDo req).bind ?_
  rintro (err | resp)
  · exact neverPanics_fail _
  · dsimp only
    split_ifs
    · exact neverPanics_fail _
    · exact neverPanics_pure _

theorem neverPanics_listSecrets (h : c.cfg.auth ≠ none) :
    NeverPanics newRequest (c.listSecrets jsonErr) := by
  rw [Client.listSecrets]
  refine neverPanics_exchange h fun resp => (neverPanics_readAll resp).bind fun body => ?_
  split
  · exact neverPanics_fail _
  · exact neverPanics_pure _

theorem neverPanics_getSecretByOperation (h : c.cfg.auth ≠ none) (name : String) :
    NeverPanics newRequest (c.getSecretByOperation jsonErr name) := by
  rw [Client.getSecretByOperation]
  refine neverPanics_exchange h fun resp => (neverPanics_readAll resp).bind fun body => ?_
  split
  · exact neverPanics_fail _
  · exact neverPanics_pure _

theorem neverPanics_getSecretFromList (h : c.cfg.auth ≠ none) (name : String) :
    NeverPanics newRequest (c.getSecretFromList jsonErr name) := by
  rw [Client.getSecretFromList]
  refine (neverPanics_listSecrets jsonErr h).bind fun secrets => ?_
  split_ifs
  · refine neverPanics_exchange h fun resp => (neverPanics_readAll resp).bind fun body => ?_
    split
    · exact neverPanics_fail _
    · split
      · exact neverPanics_pure _
      · exact neverPanics_fail _
  · exact neverPanics_fail _

theorem neverPanics_getSecret (h : c.cfg.auth ≠ none) (name : String) :
    NeverPanics newRequest (c.getSecret jsonErr name) := by
  rw [Client.getSecret]
  generalize toLower c.cfg.getVaultType = t
  split_ifs
  · exact neverPanics_getSecretFromList jsonErr h name
  · exact neverPanics_getSecretByOperation jsonErr h name

theorem neverPanics_perform (h : c.cfg.auth ≠ none) (op : VaultOp) :
    NeverPanics newRequest (c.perform jsonErr op) := by
  cases op with
  | testConnection => exact neverPanics_testConnection h
  | listSecrets => exact (neverPanics_listSecrets jsonErr h).bind fun _ => neverPanics_pure _
  | getSecret name =>
    have hget : NeverPanics newRequest _ := neverPanics_getSecret jsonErr h name
    rw [Client.perform]
    generalize c.getSecret jsonErr name = p at hget ⊢
    exact hget.bind fun _ => neverPanics_pure _
  | setSecret name value =>
    rw [Client.perform, Client.setSecret]
    exact neverPanics_exchange h fun _ => neverPanics_pure _
  | deleteSecret name =>
    rw [Client.perform, Client.deleteSecret]
    exact neverPanics_exchange h fun _ => neverPanics_pure _

theorem neverPanics_perform_iff (op : VaultOp) :
    NeverPanics newRequest (c.perform jsonErr op) ↔
      c.cfg.auth ≠ none ∨ newRequest (c.firstRequest op).1 (c.firstRequest op).2 ≠ none := by
  by_cases h : c.cfg.auth = none
  swap
  · exact ⟨fun _ => .inl h, fun _ => neverPanics_perform jsonErr h op⟩
  have hlist {β : Type} (k : List String → Http β) :
      NeverPanics newRequest (c.listSecrets jsonErr >>= k) ↔
        newRequest (c.operationMethod "list") (c.operationEndpoint "list" "") ≠ none := by
    rw [Client.listSecrets, LawfulMonad.bind_assoc, neverPanics_buildRequest_bind h]
  simp only [h, ne_eq, not_true, false_or]
  cases op with
  | testConnection => exact neverPanics_buildRequest_bind h _ _ _ _
  | listSecrets => exact hlist _
  | getSecret name =>
    simp only [Client.perform, Client.getSecret, Client.firstRequest]
    split_ifs
    · rw [Client.getSecretFromList, LawfulMonad.bind_assoc]
      exact hlist _
    · rw [Client.getSecretByOperation, LawfulMonad.bind_assoc]
      exact neverPanics_buildRequest_bind h _ _ _ _
  | setSecret name value => exact neverPanics_buildRequest_bind h _ _ _ _
  | deleteSecret name => exact neverPanics_buildRequest_bind h _ _ _ _

end Clients

/-! ### Engines -/

section Engines

variable {newRequest : String → String → Option GoError} {α : Type}

theorem Backend.perform_testConnection (b : Backend) (jsonErr : String → GoError) :
    b.perform jsonErr .testConnection = b.testConnection := by
  cases b <;> rfl

/-- An engine is built without a panic just if every backend can be tested without one. -/
theorem neverPanics_newEngine_bind (k : Backends → Http α) :
    ∀ (vaults : List VaultConfig) (backends : Backends),
      NeverPanics newRequest (newEngine backends vaults >>= k) ↔
        (∀ v ∈ vaults, ∀ b, newBackend v = .ok b → NeverPanics newRequest b.testConnection) ∧
          NeverPanics newRequest (k (registered backends vaults))
  | [], backends => by simp [newEngine, registered]
  | v :: vaults, backends => by
      rw [newEngine, registered, List.forall_mem_cons]
      rcases hnew : newBackend v with err | b
      · simpa using neverPanics_newEngine_bind k vaults backends
      · have hrest := neverPanics_newEngine_bind k vaults (backends.set v.id b)
        rw [LawfulMonad.bind_assoc, neverPanics_logged_bind, hrest]
        simp [and_assoc]

end Engines

end VaultsSyncer
