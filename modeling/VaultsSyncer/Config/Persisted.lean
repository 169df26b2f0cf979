import VaultsSyncer.Config.Json

/-! What the JSON form keeps of a vault or a sync: every field that it has. A Go map lists its entries in
    no order, so two maps are the same when one is a permutation of the other (`VaultConfig.KeptIn`). A
    value that was freshly built has no key of a map twice, and is kept in what is read back. -/

namespace VaultsSyncer

open GoStd

/-- No key twice. -/
def DistinctKeys {α : Type} (m : List (String × α)) : Prop := (m.map Prod.fst).Nodup

/-! ### Fields that are kept -/

structure OAuthConfig.KeptIn (o o' : OAuthConfig) : Prop where
  tokenEndpoint : o'.tokenEndpoint = o.tokenEndpoint
  clientID : o'.clientID = o.clientID
  clientSecret : o'.clientSecret = o.clientSecret
  scope : o'.scope = o.scope
  extraParams : o'.extraParams.Perm o.extraParams

structure AuthConfig.KeptIn (a a' : AuthConfig) : Prop where
  method : a'.method = a.method
  headers : a'.headers.Perm a.headers
  oauth : Option.Rel OAuthConfig.KeptIn a.oauth a'.oauth

/-- `v'` has what `v` has, in every field of the JSON form. -/
structure VaultConfig.KeptIn (v v' : VaultConfig) : Prop where
  id : v'.id = v.id
  name : v'.name = v.name
  type : v'.type = v.type
  endpoint : v'.endpoint = v.endpoint
  method : v'.method = v.method
  auth : Option.Rel AuthConfig.KeptIn v.auth v'.auth
  fieldNames : v'.fieldNames = v.fieldNames
  headers : v'.headers.Perm v.headers
  operations : Option.Rel List.Perm v.operations v'.operations
  timeout : v'.timeout = v.timeout
  skipSSLVerify : v'.skipSSLVerify = v.skipSSLVerify
  toolConfig : v'.toolConfig = v.toolConfig

/-! ### Values as Go builds them -/

structure AuthConfig.Built (a : AuthConfig) : Prop where
  headers : DistinctKeys a.headers
  extraParams : ∀ o, a.oauth = some o → DistinctKeys o.extraParams

structure VaultConfig.Built (v : VaultConfig) : Prop where
  auth : ∀ a, v.auth = some a → a.Built
  headers : DistinctKeys v.headers
  operations : ∀ m, v.operations = some m → DistinctKeys m

/-- The multiplier is a float64. -/
def SyncConfig.Built (s : SyncConfig) : Prop :=
  ∃ f : Float64, s.retryPolicy.multiplier = Codec.floatValue f

/-! ### What is read back -/

theorem perm_map_norm {α : Type} {c : Codec α} (hc : ∀ a, c.norm a = a) {m : List (String × α)}
    (h : DistinctKeys m) : ((Codec.map c).norm m).Perm m := by
  have hid : (fun e : String × α => (e.1, c.norm e.2)) = id := funext fun e => by rw [hc]; rfl
  change ((mapOf m).map fun e => (e.1, c.norm e.2)).Perm m
  rw [hid, List.map_id]
  exact mapOf_perm h

theorem OperationConfig.norm_eq (o : OperationConfig) : OperationConfig.codec.norm o = o := by
  have hcodes : o.statusCodes.map id = o.statusCodes := List.map_id _
  have hparser : o.responseParser.map ResponseParserConfig.codec.norm = o.responseParser :=
    congrFun Option.map_id _
  change OperationConfig.mk o.method o.endpoint (o.statusCodes.map id)
    (o.responseParser.map ResponseParserConfig.codec.norm) = o
  rw [hcodes, hparser]

theorem AuthConfig.keptIn_norm {a : AuthConfig} (h : a.Built) : a.KeptIn (AuthConfig.codec.norm a) where
  method := rfl
  headers := perm_map_norm (c := .string) (fun _ => rfl) h.headers
  oauth := by
    change Option.Rel OAuthConfig.KeptIn a.oauth (a.oauth.map OAuthConfig.codec.norm)
    rcases hoauth : a.oauth with _ | o
    · exact .none
    · exact .some ⟨rfl, rfl, rfl, rfl,
        perm_map_norm (c := .string) (fun _ => rfl) (h.extraParams o hoauth)⟩

/-- What is read back of a vault has all that was written. -/
theorem VaultConfig.keptIn_reread {v : VaultConfig} (h : v.Built) : v.KeptIn v.reread where
  id := rfl
  name := rfl
  type := rfl
  endpoint := rfl
  method := rfl
  auth := by
    rw [VaultConfig.reread_auth]
    rcases hauth : v.auth with _ | a
    · exact .none
    · exact .some (AuthConfig.keptIn_norm (h.auth a hauth))
  fieldNames := rfl
  headers := perm_map_norm (c := .string) (fun _ => rfl) h.headers
  operations := by
    rw [VaultConfig.reread_operations]
    rcases hops : v.operations with _ | m
    · exact .none
    refine .some (perm_map_norm (fun o => ?_) (h.operations m hops)).symm
    rcases o with _ | o
    · rfl
    · exact congrArg some (OperationConfig.norm_eq o)
  timeout := rfl
  skipSSLVerify := rfl
  toolConfig := by
    change (if v.toolConfig = "" then "" else v.toolConfig) = v.toolConfig
    split_ifs with h
    · exact h.symm
    · rfl

/-- And what is read back of a sync is what was written. -/
theorem SyncConfig.reread_eq {s : SyncConfig} (h : s.Built) : s.reread = s := by
  obtain ⟨f, hf⟩ := h
  have hpolicy : RetryPolicy.codec.norm s.retryPolicy = s.retryPolicy := by
    change { s.retryPolicy with multiplier := Codec.float.norm s.retryPolicy.multiplier } = s.retryPolicy
    rw [hf, Codec.float_norm_floatValue, ← hf]
  have hfilter : FilterConfig.codec.norm s.filter = s.filter :=
    congrArg₂ FilterConfig.mk (List.map_id _) (List.map_id _)
  have htransforms : s.transforms.map Transform.codec.norm = s.transforms := List.map_id _
  change SyncConfig.mk s.id s.source s.reread.targets s.syncType s.schedule
    (FilterConfig.codec.norm s.filter) (s.transforms.map Transform.codec.norm)
    (RetryPolicy.codec.norm s.retryPolicy) s.concurrentWorkers s.reread.enabled = s
  rw [hpolicy, hfilter, htransforms, SyncConfig.reread_targets, SyncConfig.reread_enabled]

end VaultsSyncer
