import VaultsSyncer.Storage.ConfigWrites

/-! `SaveVault` in memory (`storage/config_store.go`). Its working copy is a copy of the struct, so the
    `auth` it encrypts in place is the caller's own: what a caller passes keeps its credentials exactly
    if it has none (`credentials_kept_iff`). -/

namespace VaultsSyncer

open GoStd Schemes Schemes.Prog

/-! ### Memory -/

/-- What a `*AuthConfig` points to; maps and structs are behind their addresses. -/
structure AuthCell where
  method : String := ""
  headers : Option ℕ := none
  oauth : Option ℕ := none

/-- A Go map has one entry for a key. -/
abbrev HeaderMap := Table.Keyed (Prod.fst : String × String → String)

structure Memory where
  auths : ℕ → AuthCell
  maps : ℕ → HeaderMap
  oauths : ℕ → OAuthConfig

/-- A variable of type `VaultConfig`: `auth` is an address, and the fields besides it are only read. -/
structure VaultVar where
  fields : VaultConfig
  auth : Option ℕ

namespace Memory

variable (m : Memory)

/-- `headers[k] = val` for a key of the map. -/
def setHeader (r : ℕ) (k val : String) : Memory :=
  { m with maps := Function.update m.maps r ((m.maps r).modify k (fun h => (h.1, val)) fun _ => rfl) }

@[simp] theorem maps_setHeader (r : ℕ) (k val : String) : (m.setHeader r k val).maps r =
    (m.maps r).modify k (fun h => (h.1, val)) fun _ => rfl := Function.update_self _ _ _

def setOAuth (r : ℕ) (oauth : OAuthConfig) : Memory :=
  { m with oauths := Function.update m.oauths r oauth }

@[simp] theorem oauths_setOAuth (r : ℕ) (oauth : OAuthConfig) : (m.setOAuth r oauth).oauths r = oauth :=
  Function.update_self _ _ _

/-- `headers[k]`. -/
def header (r : ℕ) (k : String) : String := (((m.maps r).lookup k).map Prod.snd).getD ""

/-- What is at an address, all of it. -/
def auth (a : ℕ) : AuthConfig where
  method := (m.auths a).method
  headers := ((m.auths a).headers.map fun r => (m.maps r).rows).getD []
  oauth := (m.auths a).oauth.map m.oauths

/-- The value of a variable. -/
def vault (v : VaultVar) : VaultConfig := { v.fields with auth := v.auth.map m.auth }

end Memory

namespace VaultConfig

variable (c c' : VaultConfig)

def authHeaders : List (String × String) := (c.auth.map AuthConfig.headers).getD []

def clientSecret : String := ((c.auth.bind AuthConfig.oauth).map OAuthConfig.clientSecret).getD ""

/-- The auth header values and the client secret are the same. -/
structure SameCredentials : Prop where
  headers : c'.authHeaders.Perm c.authHeaders
  clientSecret : c'.clientSecret = c.clientSecret

def NoCredentials : Prop := c.authHeaders = [] ∧ c.clientSecret = ""

end VaultConfig

/-! ### `SaveVault` -/

/-- Encrypts headers of a map in place, in the order in which a `range` comes by their keys. -/
def encryptHeadersIn (e : Encryptor) (r : ℕ) :
    List String → Memory → Db (Memory × Except GoError Unit)
  | [], m => return (m, .ok ())
  | k :: rest, m => do
    match ← e.encryptString (m.header r k) with
    | .error err =>
      return (m, .error (.wrap ("storage: encrypt auth header " ++ goQuote k ++ ": ") err))
    | .ok enc => encryptHeadersIn e r rest (m.setHeader r k enc)

/-- Of a nil map there is nothing to encrypt. -/
def encryptMapIn (e : Encryptor) (order : List String) (m : Memory) :
    Option ℕ → Db (Memory × Except GoError Unit)
  | none => return (m, .ok ())
  | some r => encryptHeadersIn e r order m

/-- Encrypts the client secret in place, where there is one. -/
def encryptOAuthIn (e : Encryptor) (m : Memory) : Option ℕ → Db (Memory × Except GoError Unit)
  | none => return (m, .ok ())
  | some r => do
    if (m.oauths r).clientSecret = "" then return (m, .ok ())
    else
      match ← e.encryptString (m.oauths r).clientSecret with
      | .error err => return (m, .error (.wrap "storage: encrypt OAuth client_secret: " err))
      | .ok enc => return (m.setOAuth r { m.oauths r with clientSecret := enc }, .ok ())

/-- Encrypts sensitive auth fields in place. -/
def encryptVaultAuthIn (e : Encryptor) (order : List String) (v : VaultVar) (m : Memory) :
    Db (Memory × Except GoError Unit) := do
  match v.auth with
  | none => return (m, .ok ())
  | some a =>
    match ← encryptMapIn e order m (m.auths a).headers with
    | (m, .error err) => return (m, .error err)
    | (m, .ok ()) => encryptOAuthIn e m (m.auths a).oauth

/-- Inserts or replaces a vault configuration; `order` is the one in which the headers come by. -/
def ConfigStore.saveVaultIn (s : ConfigStore) (order : List String) (v : VaultVar) (m : Memory) :
    Db (Memory × Except GoError Unit) := do
  -- the copy has the address of the caller's `auth`
  let raw := v
  match s.encryptor with
  | none =>
    let r ← upsertConfigRow .vaults v.fields.id (VaultConfig.codec.marshal (m.vault raw))
    return (m, r)
  | some e =>
    match ← encryptVaultAuthIn e order raw m with
    | (m, .error err) => return (m, .error err)
    | (m, .ok ()) =>
      let r ← upsertConfigRow .vaults v.fields.id (VaultConfig.codec.marshal (m.vault raw))
      return (m, r)

/-! ### What it stores

    One call stores what `saveVault` stores of the value. -/

section Stores

variable {e : Encryptor} {m : Memory} {r : ℕ}

theorem header_of_rows {before rest : List (String × String)} {k val : String}
    (hrows : (m.maps r).rows = before ++ (k, val) :: rest) : m.header r k = val := by
  have hlookup : (m.maps r).lookup k = some (k, val) :=
    Table.Keyed.lookup_eq_some_iff.mpr ⟨by simp [hrows], rfl⟩
  rw [Memory.header, hlookup]
  rfl

theorem rows_setHeader {before rest : List (String × String)} {k val : String} (enc : String)
    (hrows : (m.maps r).rows = before ++ (k, val) :: rest) :
    ((m.setHeader r k enc).maps r).rows = before ++ (k, enc) :: rest := by
  have hnodup := (m.maps r).keys_nodup
  rw [hrows, List.map_append, List.map_cons, List.nodup_middle, List.nodup_cons] at hnodup
  have hfresh : k ∉ before.map Prod.fst ∧ k ∉ rest.map Prod.fst := by
    simpa only [List.mem_append, not_or] using hnodup.1
  have hmodify : ((m.setHeader r k enc).maps r).rows =
      Table.modify Prod.fst k (fun h => (h.1, enc)) (before ++ (k, val) :: rest) := by
    rw [← hrows, Memory.maps_setHeader]
    rfl
  have hbefore := Table.modify_of_absent hfresh.1 fun h => (h.1, enc)
  have hrest := Table.modify_of_absent hfresh.2 fun h => (h.1, enc)
  rw [Table.modify] at hbefore hrest hmodify
  rw [hmodify, List.map_append, List.map_cons, hbefore, hrest]
  simp

theorem run_encryptHeadersIn (e : Encryptor) (r : ℕ) : ∀ (headers before : List (String × String))
    (m : Memory) (env : Surroundings) (db : Database), (m.maps r).rows = before ++ headers →
    ∃ m', (encryptHeadersIn e r (headers.map Prod.fst) m).run serve (env, db) =
        ((m', ((encryptHeaders e headers).run serve (env, db)).1.map fun _ => ()),
          ((encryptHeaders e headers).run serve (env, db)).2) ∧
      m'.auths = m.auths ∧ m'.oauths = m.oauths ∧
      ∀ out, ((encryptHeaders e headers).run serve (env, db)).1 = .ok out →
        (m'.maps r).rows = before ++ out
  | [], before, m, env, db, hrows => by
      refine ⟨m, rfl, rfl, rfl, fun out hout => ?_⟩
      obtain rfl : [] = out := Except.ok.inj hout
      exact hrows
  | (k, val) :: headers, before, m, env, db, hrows => by
      rw [List.map_cons, encryptHeadersIn, header_of_rows hrows, encryptHeaders, run_bind, run_bind,
        Encryptor.encryptString, run_bind, run_randRead]
      rcases env.random.head.map (takeBytes 12) with err | nonce
      · exact ⟨m, rfl, rfl, rfl, fun out hout => by cases hout⟩
      · have hrows' := rows_setHeader (e.encrypt nonce val) hrows
        rw [List.append_cons] at hrows'
        obtain ⟨m', hrun, hauths, hoauths, hout⟩ := run_encryptHeadersIn e r headers
          (before ++ [(k, e.encrypt nonce val)]) (m.setHeader r k (e.encrypt nonce val)) env.drawn db
          hrows'
        refine ⟨m', ?_, hauths, hoauths, ?_⟩ <;> simp only [pure_eq, run_bind, run_ret]
        · rw [hrun]
          generalize (encryptHeaders e headers).run serve (env.drawn, db) = x
          obtain ⟨err | rest, s⟩ := x <;> rfl
        · generalize (encryptHeaders e headers).run serve (env.drawn, db) = x at hout
          obtain ⟨err | rest, s⟩ := x
          · exact fun out h => by cases h
          · rintro out h
            obtain rfl := Except.ok.inj h
            rw [hout rest rfl, List.append_assoc]
            rfl

theorem run_encryptOAuthIn (e : Encryptor) (m : Memory) (o : Option ℕ) (env : Surroundings)
    (db : Database) :
    ∃ m', (encryptOAuthIn e m o).run serve (env, db) =
        ((m', ((encryptOAuth e (o.map m.oauths)).run serve (env, db)).1.map fun _ => ()),
          ((encryptOAuth e (o.map m.oauths)).run serve (env, db)).2) ∧
      m'.auths = m.auths ∧ m'.maps = m.maps ∧
      ∀ out, ((encryptOAuth e (o.map m.oauths)).run serve (env, db)).1 = .ok out →
        o.map m'.oauths = out := by
  rcases o with _ | r
  · refine ⟨m, rfl, rfl, rfl, fun out hout => ?_⟩
    exact Except.ok.inj hout
  · rw [encryptOAuthIn, Option.map_some, encryptOAuth]
    split_ifs with hempty
    · refine ⟨m, rfl, rfl, rfl, fun out hout => ?_⟩
      exact Except.ok.inj hout
    · rw [run_bind, run_bind, Encryptor.encryptString, run_bind, run_randRead]
      rcases env.random.head.map (takeBytes 12) with err | nonce
      · exact ⟨m, rfl, rfl, rfl, fun out hout => by cases hout⟩
      · refine ⟨_, rfl, rfl, rfl, fun out hout => ?_⟩
        rw [← Except.ok.inj hout, Option.map_some, Memory.oauths_setOAuth]

theorem run_encryptMapIn (e : Encryptor) (m : Memory) (o : Option ℕ) (env : Surroundings)
    (db : Database) (headers : List (String × String))
    (hheaders : headers = (o.map fun r => (m.maps r).rows).getD []) :
    ∃ m', (encryptMapIn e (headers.map Prod.fst) m o).run serve (env, db) =
        ((m', ((encryptHeaders e headers).run serve (env, db)).1.map fun _ => ()),
          ((encryptHeaders e headers).run serve (env, db)).2) ∧
      m'.auths = m.auths ∧ m'.oauths = m.oauths ∧
      ∀ out, ((encryptHeaders e headers).run serve (env, db)).1 = .ok out →
        (o.map fun r => (m'.maps r).rows).getD [] = out := by
  rcases o with _ | r
  · obtain rfl : headers = [] := hheaders
    exact ⟨m, rfl, rfl, rfl, fun out hout => Except.ok.inj hout⟩
  · exact run_encryptHeadersIn e r headers [] m env db hheaders.symm

/-- The value of the variable is encrypted in its place. -/
theorem run_encryptVaultAuthIn (e : Encryptor) (v : VaultVar) (m : Memory) (env : Surroundings)
    (db : Database) :
    ∃ m', (encryptVaultAuthIn e ((m.vault v).authHeaders.map Prod.fst) v m).run serve (env, db) =
        ((m', ((encryptVaultAuth e (m.vault v)).run serve (env, db)).1.map fun _ => ()),
          ((encryptVaultAuth e (m.vault v)).run serve (env, db)).2) ∧
      ∀ raw, ((encryptVaultAuth e (m.vault v)).run serve (env, db)).1 = .ok raw → m'.vault v = raw := by
  obtain ⟨fields, _ | a⟩ := v
  · exact ⟨m, rfl, fun raw hraw => Except.ok.inj hraw⟩
  · have hheaders : (m.vault ⟨fields, some a⟩).authHeaders = (m.auth a).headers := rfl
    rw [encryptVaultAuthIn, encryptVaultAuth, hheaders]
    simp only [Memory.vault, Option.map_some]
    obtain ⟨m₁, hrun₁, hauths₁, hoauths₁, hout₁⟩ := run_encryptMapIn e m (m.auths a).headers env db
      (m.auth a).headers rfl
    rw [run_bind, run_bind, hrun₁]
    generalize (encryptHeaders e (m.auth a).headers).run serve (env, db) = x at hrun₁ hout₁
    obtain ⟨err | out, env₁, db₁⟩ := x
    · exact ⟨m₁, rfl, fun raw hraw => by cases hraw⟩
    simp only [Except.map]
    obtain ⟨m₂, hrun₂, hauths₂, hmaps₂, hout₂⟩ := run_encryptOAuthIn e m₁ (m₁.auths a).oauth env₁ db₁
    have hoauth : (m.auth a).oauth = (m₁.auths a).oauth.map m₁.oauths := by
      rw [hauths₁, hoauths₁]
      rfl
    rw [hoauth, run_bind, hrun₂]
    generalize (encryptOAuth e ((m₁.auths a).oauth.map m₁.oauths)).run serve (env₁, db₁) = x
      at hrun₂ hout₂
    obtain ⟨err | oauth, env₂, db₂⟩ := x
    · exact ⟨m₂, rfl, fun raw hraw => by cases hraw⟩
    · refine ⟨m₂, rfl, fun raw hraw => ?_⟩
      have hauth : m₂.auth a = { m.auth a with headers := out, oauth := oauth } := by
        have hmethod : (m₂.auths a).method = (m.auths a).method := by rw [hauths₂, hauths₁]
        have hheaders₂ := hout₁ out rfl
        have hoauth₂ := hout₂ oauth rfl
        rw [← hauths₁, ← hauths₂, ← hmaps₂] at hheaders₂
        rw [← hauths₂] at hoauth₂
        rw [Memory.auth, hmethod, hheaders₂, hoauth₂]
        rfl
      rw [← Except.ok.inj hraw, hauth]

theorem run_saveVaultIn (s : ConfigStore) (v : VaultVar) (m : Memory) (env : Surroundings)
    (db : Database) :
    ∃ m', (s.saveVaultIn ((m.vault v).authHeaders.map Prod.fst) v m).run serve (env, db) =
      ((m', ((s.saveVault (m.vault v)).run serve (env, db)).1),
        ((s.saveVault (m.vault v)).run serve (env, db)).2) := by
  rw [ConfigStore.saveVaultIn, ConfigStore.saveVault]
  rcases s.encryptor with _ | e
  · exact ⟨m, run_bind _ _ _ _⟩
  · obtain ⟨m', hrun, hraw⟩ := run_encryptVaultAuthIn e v m env db
    dsimp only
    rw [run_bind, run_bind, hrun]
    generalize (encryptVaultAuth e (m.vault v)).run serve (env, db) = x at hrun hraw
    obtain ⟨err | raw, env₁, db₁⟩ := x
    · exact ⟨m', rfl⟩
    · have hvault := hraw raw rfl
      simp only [Except.map, hvault]
      exact ⟨m', run_bind _ _ _ _⟩

end Stores

/-! ### What it leaves in memory

    A text gets longer when it is encrypted, so that nothing brings back what it was. -/

/-- A text is shorter than what it is encrypted to: a nonce and a tag come with it. -/
def Encryptor.Lengthens (e : Encryptor) : Prop := ∀ nonce s, s.length < (e.encrypt nonce s).length

namespace VaultConfig

/-- The length of all credentials. -/
def weight (c : VaultConfig) : ℕ :=
  (c.authHeaders.map fun h => h.2.length).sum + c.clientSecret.length

/-- The credentials of `c'` are those of `c`, some of them longer. -/
structure Swells (c c' : VaultConfig) : Prop where
  keys : c'.authHeaders.map Prod.fst = c.authHeaders.map Prod.fst
  secret : c'.clientSecret = "" ↔ c.clientSecret = ""
  weight : c.weight ≤ c'.weight

theorem Swells.refl (c : VaultConfig) : c.Swells c := ⟨rfl, Iff.rfl, le_rfl⟩

theorem Swells.trans {c c' c'' : VaultConfig} (h : c.Swells c') (h' : c'.Swells c'') : c.Swells c'' :=
  ⟨h'.keys.trans h.keys, h'.secret.trans h.secret, h.weight.trans h'.weight⟩

theorem SameCredentials.weight_eq {c c' : VaultConfig} (h : c.SameCredentials c') :
    c'.weight = c.weight := by
  rw [weight, weight, h.clientSecret, (h.headers.map _).sum_eq]

theorem Swells.noCredentials_iff {c c' : VaultConfig} (h : c.Swells c') :
    c'.NoCredentials ↔ c.NoCredentials := by
  refine and_congr ?_ h.secret
  rw [← List.map_eq_nil_iff (f := Prod.fst), h.keys, List.map_eq_nil_iff]

end VaultConfig

section Grows

variable {e : Encryptor} {v : VaultVar} {m : Memory} {a r : ℕ}

/-- The variable's headers are the map at `r`. -/
structure VaultVar.HasHeaders (v : VaultVar) (m : Memory) (a r : ℕ) : Prop where
  auth : v.auth = some a
  headers : (m.auths a).headers = some r

theorem VaultVar.HasHeaders.authHeaders_eq (h : v.HasHeaders m a r) :
    (m.vault v).authHeaders = (m.maps r).rows := by
  rw [VaultConfig.authHeaders, Memory.vault, h.auth, Option.map_some, Option.map_some, Memory.auth,
    h.headers]
  rfl

theorem swells_setHeader (hlong : e.Lengthens) (h : v.HasHeaders m a r) (nonce : Bytes) (k : String) :
    let m' := m.setHeader r k (e.encrypt nonce (m.header r k))
    (m.vault v).Swells (m'.vault v) ∧
      (k ∈ (m.vault v).authHeaders.map Prod.fst → (m.vault v).weight < (m'.vault v).weight) := by
  intro m'
  have h' : v.HasHeaders m' a r := ⟨h.auth, h.headers⟩
  have hheaders : (m'.vault v).authHeaders = Table.modify Prod.fst k
      (fun h => (h.1, e.encrypt nonce (m.header r k))) (m.vault v).authHeaders := by
    rw [h.authHeaders_eq, h'.authHeaders_eq, Memory.maps_setHeader]
    rfl
  have hsecret : (m'.vault v).clientSecret = (m.vault v).clientSecret := by
    simp only [VaultConfig.clientSecret, Memory.vault, h.auth]
    rfl
  have hkeys : (Table.modify Prod.fst k (fun h : String × String =>
      (h.1, e.encrypt nonce (m.header r k))) (m.vault v).authHeaders).map Prod.fst =
        (m.vault v).authHeaders.map Prod.fst :=
    Table.map_key_modify (f := fun h => (h.1, e.encrypt nonce (m.header r k))) (fun _ => rfl) k _
  have hnodup : ((m.vault v).authHeaders.map Prod.fst).Nodup := by
    rw [h.authHeaders_eq]
    exact (m.maps r).keys_nodup
  by_cases hk : k ∈ (m.vault v).authHeaders.map Prod.fst
  · obtain ⟨⟨k', val⟩, hmem, rfl⟩ := List.mem_map.mp hk
    have hlookup := Table.lookup_of_mem hnodup hmem
    have hval : m.header r k' = val := by
      rw [h.authHeaders_eq] at hlookup
      rw [Memory.header, Table.Keyed.lookup, hlookup]
      rfl
    have hsum := Table.sum_map_modify (fun h : String × String => h.2.length)
      (f := fun h => (h.1, e.encrypt nonce (m.header r k'))) hnodup hlookup
    have hlt := hlong nonce val
    have hweight : (m.vault v).weight < (m'.vault v).weight := by
      simp only [VaultConfig.weight, hheaders, hsecret]
      simp only [hval] at hsum ⊢
      omega
    exact ⟨⟨by rw [hheaders, hkeys], by rw [hsecret], hweight.le⟩, fun _ => hweight⟩
  · have hsame : (m'.vault v).authHeaders = (m.vault v).authHeaders := by
      rw [hheaders, Table.modify_of_absent hk]
    refine ⟨⟨by rw [hsame], by rw [hsecret], ?_⟩, fun h => absurd h hk⟩
    rw [VaultConfig.weight, VaultConfig.weight, hsame, hsecret]

/-- The credentials of the variable are still those it had, some longer, and longer altogether where
    `long` holds. -/
structure VaultVar.Encrypted (v : VaultVar) (m m' : Memory) (long : Prop) : Prop where
  auths : m'.auths = m.auths
  swells : (m.vault v).Swells (m'.vault v)
  longer : long → (m.vault v).weight < (m'.vault v).weight

theorem VaultVar.Encrypted.same (v : VaultVar) (m : Memory) {long : Prop} (h : ¬long) :
    v.Encrypted m m long := ⟨rfl, .refl _, fun hl => absurd hl h⟩

theorem VaultVar.Encrypted.trans {m' m'' : Memory} {long long' long'' : Prop}
    (h : v.Encrypted m m' long) (h' : v.Encrypted m' m'' long') (hlong : long'' → long ∨ long') :
    v.Encrypted m m'' long'' where
  auths := h'.auths.trans h.auths
  swells := h.swells.trans h'.swells
  longer hl := by
    rcases hlong hl with hl | hl
    · exact (h.longer hl).trans_le h'.swells.weight
    · exact h.swells.weight.trans_lt (h'.longer hl)

theorem returns_encryptHeadersIn (hlong : e.Lengthens) : ∀ (order : List String) (m : Memory),
    v.HasHeaders m a r → (encryptHeadersIn e r order m).Returns (fun _ _ => True) fun x =>
      v.Encrypted m x.1
        (x.2 = .ok () ∧ ∃ k ∈ order, k ∈ (m.vault v).authHeaders.map Prod.fst)
  | [], m, h => .same v m (by simp)
  | k :: rest, m, h => by
      rw [encryptHeadersIn, returns_bind]
      refine (returns_encryptString e _).mono ?_
      rintro (err | enc) henc
      · exact .same v m (by simp)
      · obtain ⟨nonce, rfl⟩ := henc enc rfl
        obtain ⟨hswells, hlonger⟩ := swells_setHeader hlong h nonce k
        have hfirst : v.Encrypted m (m.setHeader r k (e.encrypt nonce (m.header r k)))
            (k ∈ (m.vault v).authHeaders.map Prod.fst) := ⟨rfl, hswells, hlonger⟩
        refine (returns_encryptHeadersIn hlong rest
          (m.setHeader r k (e.encrypt nonce (m.header r k))) ⟨h.auth, h.headers⟩).mono fun x hx => ?_
        refine hfirst.trans hx fun hl => ?_
        obtain ⟨hok, k', hk', hmem⟩ := hl
        rcases List.mem_cons.mp hk' with rfl | hk'
        · exact .inl hmem
        · exact .inr ⟨hok, k', hk', by rwa [hswells.keys]⟩

theorem returns_encryptOAuthIn (hlong : e.Lengthens) (ha : v.auth = some a) (m : Memory) :
    (encryptOAuthIn e m (m.auths a).oauth).Returns (fun _ _ => True) fun x =>
      v.Encrypted m x.1 (x.2 = .ok () ∧ (m.vault v).clientSecret ≠ "") := by
  have hsecret : (m.vault v).clientSecret =
      (((m.auths a).oauth.map m.oauths).map OAuthConfig.clientSecret).getD "" := by
    simp only [VaultConfig.clientSecret, Memory.vault, ha]
    rfl
  rcases hoauth : (m.auths a).oauth with _ | o
  · rw [hoauth] at hsecret
    exact .same v m fun h => h.2 hsecret
  rw [hoauth] at hsecret
  rw [encryptOAuthIn]
  split_ifs with hempty
  · exact .same v m fun h => h.2 (hsecret.trans hempty)
  · rw [returns_bind]
    refine (returns_encryptString e _).mono ?_
    rintro (err | enc) henc
    · exact .same v m (by simp)
    · obtain ⟨nonce, rfl⟩ := henc enc rfl
      let m' := m.setOAuth o
        { m.oauths o with clientSecret := e.encrypt nonce (m.oauths o).clientSecret }
      have hheaders : (m'.vault v).authHeaders = (m.vault v).authHeaders := by
        simp only [VaultConfig.authHeaders, Memory.vault, ha]
        rfl
      have hsecret' : (m'.vault v).clientSecret = e.encrypt nonce (m.oauths o).clientSecret := by
        have hcell : (m'.auths a).oauth = some o := hoauth
        simp [VaultConfig.clientSecret, Memory.vault, ha, Memory.auth, hcell, m']
      have hold : (m.vault v).clientSecret = (m.oauths o).clientSecret := hsecret
      have hlt := hlong nonce (m.oauths o).clientSecret
      have hweight : (m.vault v).weight < (m'.vault v).weight := by
        simp only [VaultConfig.weight, hheaders, hsecret', hold]
        omega
      have hswells : (m.vault v).Swells (m'.vault v) :=
        ⟨by rw [hheaders], by simp [hsecret', hold, hempty, e.encrypt_ne_empty], hweight.le⟩
      exact ⟨rfl, hswells, fun _ => hweight⟩

theorem returns_encryptVaultAuthIn (hlong : e.Lengthens) {order : List String} (v : VaultVar)
    (m : Memory) (horder : order.Perm ((m.vault v).authHeaders.map Prod.fst)) :
    (encryptVaultAuthIn e order v m).Returns (fun _ _ => True) fun x =>
      v.Encrypted m x.1 (x.2 = .ok () ∧ ¬(m.vault v).NoCredentials) := by
  rw [encryptVaultAuthIn]
  rcases ha : v.auth with _ | a
  · refine .same v m fun h => h.2 ?_
    simp [VaultConfig.NoCredentials, VaultConfig.authHeaders, VaultConfig.clientSecret, Memory.vault, ha]
  have hmap : (encryptMapIn e order m (m.auths a).headers).Returns (fun _ _ => True) fun x =>
      v.Encrypted m x.1 (x.2 = .ok () ∧ (m.vault v).authHeaders ≠ []) := by
    rcases hheaders : (m.auths a).headers with _ | r
    · refine .same v m fun h => h.2 ?_
      simp [VaultConfig.authHeaders, Memory.vault, ha, Memory.auth, hheaders]
    · refine (returns_encryptHeadersIn hlong order m ⟨ha, hheaders⟩).mono fun x hx => ?_
      refine ⟨hx.auths, hx.swells, fun h => hx.longer ⟨h.1, ?_⟩⟩
      obtain ⟨⟨k, val⟩, hmem⟩ := List.exists_mem_of_ne_nil _ h.2
      have hk := List.mem_map_of_mem (f := Prod.fst) hmem
      exact ⟨k, horder.mem_iff.mpr hk, hk⟩
  dsimp only
  rw [returns_bind]
  refine hmap.mono ?_
  rintro ⟨m₁, err | ⟨⟩⟩ h₁
  · exact ⟨h₁.auths, h₁.swells, fun h => by cases h.1⟩
  · refine (returns_encryptOAuthIn hlong ha m₁).mono fun x hx => ?_
    refine h₁.trans hx fun h => ?_
    by_cases hheaders : (m.vault v).authHeaders = []
    · exact .inr ⟨h.1, fun hempty => h.2 ⟨hheaders, h₁.swells.secret.mp hempty⟩⟩
    · exact .inl ⟨rfl, hheaders⟩

theorem returns_saveVaultIn (hlong : e.Lengthens) {s : ConfigStore} (hs : s.encryptor = some e)
    {order : List String} (v : VaultVar) (m : Memory)
    (horder : order.Perm ((m.vault v).authHeaders.map Prod.fst)) :
    (s.saveVaultIn order v m).Returns (fun _ _ => True) fun x =>
      v.Encrypted m x.1 (x.2 = .ok () ∧ ¬(m.vault v).NoCredentials) := by
  rw [ConfigStore.saveVaultIn, hs]
  dsimp only
  rw [returns_bind]
  refine (returns_encryptVaultAuthIn hlong v m horder).mono ?_
  rintro ⟨m₁, err | ⟨⟩⟩ h₁
  · exact ⟨h₁.auths, h₁.swells, fun h => by cases h.1⟩
  · dsimp only
    rw [returns_bind]
    refine (returns_true _).mono fun res _ => ?_
    exact ⟨h₁.auths, h₁.swells, fun h => h₁.longer ⟨rfl, h.2⟩⟩

/-- With a nonce for the first header, one header at least is encrypted. -/
theorem encryptHeadersIn_draw (hlong : e.Lengthens) {k : String} (rest : List String)
    (h : v.HasHeaders m a r) (hk : k ∈ (m.vault v).authHeaders.map Prod.fst) {env : Surroundings}
    {b : Bytes} (hdraw : env.random.head = .ok b) (db : Database) :
    v.Encrypted m ((encryptHeadersIn e r (k :: rest) m).run serve (env, db)).1.1 True := by
  obtain ⟨hswells, hlonger⟩ := swells_setHeader hlong h (takeBytes 12 b) k
  have hfirst : v.Encrypted m (m.setHeader r k (e.encrypt (takeBytes 12 b) (m.header r k))) True :=
    ⟨rfl, hswells, fun _ => hlonger hk⟩
  rw [encryptHeadersIn, run_bind, Encryptor.encryptString, run_bind, run_randRead, hdraw]
  have hrest := (returns_encryptHeadersIn hlong rest
    (m.setHeader r k (e.encrypt (takeBytes 12 b) (m.header r k))) ⟨h.auth, h.headers⟩).run serve
      (fun _ _ => trivial) (env.drawn, db)
  exact hfirst.trans hrest fun _ => .inl trivial

theorem saveVaultIn_draw (hlong : e.Lengthens) {s : ConfigStore} (hs : s.encryptor = some e)
    {order : List String} (hne : order ≠ []) (v : VaultVar) (m : Memory)
    (horder : order.Perm ((m.vault v).authHeaders.map Prod.fst)) {env : Surroundings} {b : Bytes}
    (hdraw : env.random.head = .ok b) (db : Database) :
    v.Encrypted m ((s.saveVaultIn order v m).run serve (env, db)).1.1 True := by
  obtain ⟨k, rest, rfl⟩ := List.exists_cons_of_ne_nil hne
  have hk : k ∈ (m.vault v).authHeaders.map Prod.fst := horder.mem_iff.mp (by simp)
  rw [ConfigStore.saveVaultIn, hs]
  dsimp only
  rw [run_bind, encryptVaultAuthIn]
  rcases ha : v.auth with _ | a
  · simp [VaultConfig.authHeaders, Memory.vault, ha] at hk
  rcases hheaders : (m.auths a).headers with _ | r
  · simp [VaultConfig.authHeaders, Memory.vault, ha, Memory.auth, hheaders] at hk
  have hfirst := encryptHeadersIn_draw hlong rest ⟨ha, hheaders⟩ hk hdraw db
  have hmap : encryptMapIn e (k :: rest) m (m.auths a).headers = encryptHeadersIn e r (k :: rest) m := by
    rw [hheaders]
    rfl
  dsimp only
  rw [run_bind, hmap]
  generalize (encryptHeadersIn e r (k :: rest) m).run serve (env, db) = x at hfirst
  obtain ⟨⟨m₁, err | ⟨⟩⟩, env₁, db₁⟩ := x
  · exact hfirst
  have hsecond := (returns_encryptOAuthIn hlong ha m₁).run serve (fun _ _ => trivial) (env₁, db₁)
  dsimp only
  generalize (encryptOAuthIn e m₁ (m₁.auths a).oauth).run serve (env₁, db₁) = y at hsecond
  obtain ⟨⟨m₂, err | ⟨⟩⟩, env₂, db₂⟩ := y
  · exact hfirst.trans hsecond fun _ => .inl trivial
  · dsimp only
    rw [run_bind]
    exact hfirst.trans hsecond fun _ => .inl trivial

/-- Without credentials nothing is encrypted. -/
theorem encryptVaultAuthIn_none (e : Encryptor) {v : VaultVar} {m : Memory}
    (h : (m.vault v).NoCredentials) : encryptVaultAuthIn e [] v m = .ret (m, .ok ()) := by
  rw [encryptVaultAuthIn]
  rcases ha : v.auth with _ | a
  · rfl
  have hmap : encryptMapIn e [] m (m.auths a).headers = .ret (m, .ok ()) := by
    rcases (m.auths a).headers with _ | r <;> rfl
  dsimp only
  rw [hmap]
  change encryptOAuthIn e m (m.auths a).oauth = _
  rcases hoauth : (m.auths a).oauth with _ | o
  · rfl
  · have hempty : (m.oauths o).clientSecret = "" := by
      have hsecret := h.2
      simpa [VaultConfig.clientSecret, Memory.vault, ha, Memory.auth, hoauth] using hsecret
    rw [encryptOAuthIn, if_pos hempty]
    rfl

end Grows

/-! ### Successive calls -/

/-- What a caller of `SaveVault` and the database have. -/
structure SaveState where
  memory : Memory
  env : Surroundings
  db : Database

namespace ConfigStore

variable (s : ConfigStore) (v : VaultVar)

/-- A call that passes the variable, in which the headers come by in some order. -/
def saveOnce (σ : SaveState) (order : List String) : Except GoError Unit × SaveState :=
  let r := (s.saveVaultIn order v σ.memory).run serve (σ.env, σ.db)
  (r.1.2, ⟨r.1.1, r.2.1, r.2.2⟩)

/-- Successive calls that pass the same variable. -/
def saves (σ : SaveState) (orders : List (List String)) : SaveState :=
  orders.foldl (fun σ order => (s.saveOnce v σ order).2) σ

/-- The variable has the credentials it had, and `GetVault` returns them. -/
structure CredentialsKept (σ σ' : SaveState) : Prop where
  memory : (σ.memory.vault v).SameCredentials (σ'.memory.vault v)
  stored : ∀ env : Surroundings, env.Works → ∃ c,
    ((s.getVault v.fields.id).run serve (env, σ'.db)).1 = .ok (some c) ∧
      (σ.memory.vault v).SameCredentials c

end ConfigStore

/-- The random generator fails in the middle of `n` draws. -/
def Surroundings.BreaksOff (env : Surroundings) (n : ℕ) : Prop :=
  ∃ k, 0 < k ∧ k < n ∧ (∀ j < k, ∃ b, env.random.get j = .ok b) ∧ ∃ err, env.random.get k = .error err

section Successive

variable {s : ConfigStore} {e : Encryptor} {v : VaultVar} {σ : SaveState}

theorem saves_append (orders orders' : List (List String)) :
    s.saves v σ (orders ++ orders') = s.saves v (s.saves v σ orders) orders' :=
  List.foldl_append

theorem saves_swells (hlong : e.Lengthens) (hs : s.encryptor = some e) {orders : List (List String)}
    (horders : ∀ order ∈ orders, order.Perm ((σ.memory.vault v).authHeaders.map Prod.fst)) :
    (σ.memory.vault v).Swells ((s.saves v σ orders).memory.vault v) := by
  induction orders using List.reverseRecOn with
  | nil => exact .refl _
  | append_singleton orders order ih =>
    have hprev := ih fun o ho => horders o (List.mem_append_left _ ho)
    have horder := horders order (by simp)
    rw [← hprev.keys] at horder
    have hstep := (returns_saveVaultIn hlong hs v _ horder).run serve (fun _ _ => trivial)
      ((s.saves v σ orders).env, (s.saves v σ orders).db)
    rw [saves_append]
    exact hprev.trans hstep.swells

/-- A variable without credentials is the same after each call, and its row is written as it is. -/
theorem saveOnce_none (hs : s.encryptor = some e) (h : (σ.memory.vault v).NoCredentials) :
    (s.saveOnce v σ []).2.memory = σ.memory ∧
      ((ConfigStore.upsertConfigRow .vaults v.fields.id
        (VaultConfig.codec.marshal (σ.memory.vault v))).run serve (σ.env, σ.db)) =
          ((s.saveOnce v σ []).1, (s.saveOnce v σ []).2.env, (s.saveOnce v σ []).2.db) := by
  rw [ConfigStore.saveOnce, ConfigStore.saveVaultIn, hs]
  dsimp only
  rw [encryptVaultAuthIn_none e h, ret_bind]
  dsimp only
  rw [run_bind]
  exact ⟨rfl, rfl⟩

/-- The row of an upsert, whether it has gone through or not. -/
theorem text_upsert_any (t : ConfigTable) (id json : String) (env : Surroundings) (db : Database) :
    ((ConfigStore.upsertConfigRow t id json).run serve (env, db)).2.2.text t id = db.text t id ∨
      ((ConfigStore.upsertConfigRow t id json).run serve (env, db)).2.2.text t id = some json := by
  let p (st : Stmt) : Prop := ∀ d : Database, (st.exec d).2.text t id = d.text t id ∨
    (st.exec d).2.text t id = some json
  have hcalls : (ConfigStore.upsertConfigRow t id json).AllCalls (DbCall.Only p) := by
    refine allCalls_upsertConfigRow (fun now d => ?_) fun now d => ?_
    · rw [text_update, if_pos ⟨rfl, rfl⟩]
      rcases d.text t id with _ | old
      · exact .inl rfl
      · exact .inr rfl
    · by_cases hfree : d.text t id = none
      · rw [text_insert hfree, if_pos ⟨rfl, rfl⟩]
        exact .inr rfl
      · have htaken : (d.config t).lookup id ≠ none := mt (fun hnone => by
          rw [Database.text, hnone]; rfl) hfree
        have hsame : ((Stmt.insertConfig t id json now).exec d).2 = d := by
          simp only [Stmt.exec, htaken, ↓reduceDIte]
        exact .inl (by rw [hsame])
  refine hcalls.run_preserves serve (I := fun x => x.2.text t id = db.text t id ∨
    x.2.text t id = some json) ?_ (.inl rfl)
  rintro op ⟨env, d⟩ hop hd
  refine serve_preserves (I := fun d => d.text t id = db.text t id ∨ d.text t id = some json) hop ?_
    env hd
  intro st d hst hd
  rcases hst d with hsame | hnew
  · rwa [hsame]
  · exact .inr hnew

theorem noCredentials_reread {c : VaultConfig} (h : c.NoCredentials) : c.reread.NoCredentials := by
  obtain ⟨hheaders, hsecret⟩ := h
  rw [VaultConfig.authHeaders] at hheaders
  rw [VaultConfig.clientSecret] at hsecret
  rw [VaultConfig.NoCredentials, VaultConfig.authHeaders, VaultConfig.clientSecret,
    VaultConfig.reread_auth]
  rcases hauth : c.auth with _ | auth
  · exact ⟨rfl, rfl⟩
  · rw [hauth] at hheaders hsecret
    have hempty : auth.headers = [] := hheaders
    simp only [Option.map_some, AuthConfig.codec_norm, hempty]
    refine ⟨rfl, ?_⟩
    rcases hoauth : auth.oauth with _ | oauth
    · rfl
    · have hnone : oauth.clientSecret = "" := by simpa [hoauth] using hsecret
      exact hnone

theorem decryptVaultAuth_none (e : Encryptor) {c : VaultConfig} (h : c.NoCredentials) :
    decryptVaultAuth e c = .ok c := by
  obtain ⟨hheaders, hsecret⟩ := h
  rw [VaultConfig.authHeaders] at hheaders
  rw [VaultConfig.clientSecret] at hsecret
  rw [decryptVaultAuth]
  rcases hauth : c.auth with _ | auth
  · rfl
  · rw [hauth] at hheaders hsecret
    have hempty : auth.headers = [] := hheaders
    have hheaders' : decryptHeaders e auth.headers = .ok auth.headers := by
      rw [hempty]
      rfl
    have hoauth' : decryptOAuth e auth.oauth = .ok auth.oauth := by
      rcases hoauth : auth.oauth with _ | oauth
      · rfl
      · have hnone : oauth.clientSecret = "" := by simpa [hoauth] using hsecret
        rw [decryptOAuth, if_pos hnone]
    simp only [hheaders', hoauth']
    change Except.ok { c with auth := some auth } = Except.ok c
    rw [← hauth]

/-- A row that tells of no credentials is read so. -/
theorem getVault_none (hs : s.encryptor = some e) {id : String} {c : VaultConfig}
    (h : c.NoCredentials) {db : Database} (htext : db.text .vaults id =
      some (VaultConfig.codec.marshal c)) {env : Surroundings} (henv : env.Works) :
    ((s.getVault id).run serve (env, db)).1 = .ok (some c.reread) := by
  have hread : ∀ pre, s.readVault pre (VaultConfig.codec.marshal c) = .ok c.reread := by
    intro pre
    rw [ConfigStore.readVault, VaultConfig.unmarshal_marshal, hs]
    exact decryptVaultAuth_none e (noCredentials_reread h)
  have hne : VaultConfig.codec.marshal c ≠ "" := by
    intro hempty
    have hc := hread ""
    rw [hempty] at hc
    exact ConfigStore.readVault_empty "" c.reread hc
  have hhead : env.faults.head = none := henv 0
  rw [ConfigStore.run_getVault, ConfigStore.run_getConfigJSON, hhead, htext]
  change (if VaultConfig.codec.marshal c = "" then _ else _) = _
  rw [if_neg hne]
  exact congrArg (Except.map some) (hread _)

/-- Without credentials the variable is kept, and its row is there from the first call that goes
    through. -/
theorem saves_none (hs : s.encryptor = some e) (h : (σ.memory.vault v).NoCredentials)
    {orders : List (List String)} (horders : ∀ order ∈ orders, order = []) :
    (s.saves v σ orders).memory = σ.memory ∧
      ((∃ before after, orders = before ++ [] :: after ∧
          (s.saveOnce v (s.saves v σ before) []).1 = .ok ()) →
        (s.saves v σ orders).db.text .vaults v.fields.id =
          some (VaultConfig.codec.marshal (σ.memory.vault v))) := by
  induction orders using List.reverseRecOn with
  | nil => exact ⟨rfl, fun ⟨before, after, heq, _⟩ => absurd heq (by simp)⟩
  | append_singleton orders order ih =>
    obtain rfl : order = [] := horders order (by simp)
    obtain ⟨hmemory, hrow⟩ := ih fun o ho => horders o (List.mem_append_left _ ho)
    rw [← hmemory] at h
    obtain ⟨hsame, hrun⟩ := saveOnce_none hs h
    rw [saves_append]
    refine ⟨hsame.trans hmemory, ?_⟩
    rintro ⟨before, after, heq, hok⟩
    change (s.saveOnce v (s.saves v σ orders) []).2.db.text .vaults v.fields.id = _
    rcases List.eq_nil_or_concat after with rfl | ⟨after, o, rfl⟩
    · obtain ⟨rfl, -⟩ := List.append_inj' heq rfl
      rw [hok] at hrun
      rw [ConfigStore.text_upsert hrun, if_pos ⟨rfl, rfl⟩, hmemory]
    · have hearlier := hrow ⟨before, after, ?_, hok⟩
      · have hany := text_upsert_any .vaults v.fields.id
          (VaultConfig.codec.marshal ((s.saves v σ orders).memory.vault v)) (s.saves v σ orders).env
          (s.saves v σ orders).db
        rw [hrun, hmemory] at hany
        rcases hany with hany | hany
        · exact hany.trans hearlier
        · exact hany
      · rw [List.concat_eq_append, ← List.cons_append, ← List.append_assoc] at heq
        exact (List.append_inj' heq rfl).1

/-- After successive calls, of which one has gone through or has broken off between two headers, what
    was passed has its credentials, and `GetVault` returns them, exactly if there are none. -/
theorem credentials_kept_iff (hlong : e.Lengthens) (hs : s.encryptor = some e)
    {orders : List (List String)}
    (horders : ∀ order ∈ orders, order.Perm ((σ.memory.vault v).authHeaders.map Prod.fst))
    (hreached : ∃ before order after, orders = before ++ order :: after ∧
      ((s.saveOnce v (s.saves v σ before) order).1 = .ok () ∨
        (s.saves v σ before).env.BreaksOff order.length)) :
    s.CredentialsKept v σ (s.saves v σ orders) ↔ (σ.memory.vault v).NoCredentials := by
  obtain ⟨before, order, after, rfl, hcall⟩ := hreached
  constructor
  · intro hkept
    by_contra hsome
    have hprev := saves_swells (σ := σ) hlong hs fun o ho => horders o (List.mem_append_left _ ho)
    have horder := horders order (by simp)
    rw [← hprev.keys] at horder
    have hlonger : ((s.saves v σ before).memory.vault v).weight <
        ((s.saveOnce v (s.saves v σ before) order).2.memory.vault v).weight := by
      rcases hcall with hok | ⟨k, hk, hlt, hdraws, -⟩
      · have hstep := (returns_saveVaultIn hlong hs v _ horder).run serve (fun _ _ => trivial)
          ((s.saves v σ before).env, (s.saves v σ before).db)
        exact hstep.longer ⟨hok, mt hprev.noCredentials_iff.mp hsome⟩
      · obtain ⟨b, hb⟩ := hdraws 0 hk
        have hne : order ≠ [] := List.length_pos_iff.mp (by omega)
        exact (saveVaultIn_draw hlong hs hne v _ horder hb (s.saves v σ before).db).longer trivial
    have hstep := (returns_saveVaultIn hlong hs v _ horder).run serve (fun _ _ => trivial)
      ((s.saves v σ before).env, (s.saves v σ before).db)
    have hrest : ((s.saveOnce v (s.saves v σ before) order).2.memory.vault v).Swells
        ((s.saves v σ (before ++ order :: after)).memory.vault v) := by
      rw [saves_append]
      have hafter : ∀ o ∈ after, o.Perm
          (((s.saveOnce v (s.saves v σ before) order).2.memory.vault v).authHeaders.map Prod.fst) := by
        intro o ho
        have hperm := horders o (by simp [ho])
        rw [← hprev.keys, ← hstep.swells.keys] at hperm
        exact hperm
      exact saves_swells hlong hs hafter
    have hweight := hkept.memory.weight_eq
    have h₁ := hprev.weight
    have h₂ := hrest.weight
    omega
  · intro hnone
    have hempty : ∀ o ∈ before ++ order :: after, o = [] := by
      intro o ho
      have hperm := horders o ho
      rw [hnone.1] at hperm
      exact hperm.eq_nil
    obtain rfl : order = [] := hempty order (by simp)
    obtain ⟨hmemory, hrow⟩ := saves_none hs hnone hempty
    constructor
    · rw [hmemory]
      exact ⟨.refl _, rfl⟩
    · intro env henv
      rcases hcall with hok | ⟨k, -, hk, -⟩
      · refine ⟨_, getVault_none hs hnone (hrow ⟨before, after, rfl, hok⟩) henv, ?_⟩
        have hreread := noCredentials_reread hnone
        exact ⟨by rw [hreread.1, hnone.1], hreread.2.trans hnone.2.symm⟩
      · exact absurd hk (by simp)

end Successive

theorem markingCipher_lengthens : markingCipher.Lengthens := by
  intro nonce s
  have hmark : 0 < "#".length := by decide
  simpa [markingCipher] using hmark

/-- A store that encrypts. -/
def markingStore : ConfigStore := { encryptor := some markingCipher }

/-- A memory in which every map holds one token. -/
def tokenState : SaveState where
  memory :=
    { auths := fun _ => { method := "bearer", headers := some 0 }
      maps := fun _ => ⟨[("Authorization", "Bearer tok")], by simp⟩
      oauths := fun _ => {} }
  env := {}
  db := .empty

theorem credentials_kept_iff_open :
    markingStore.CredentialsKept ⟨{ id := "v" }, none⟩ tokenState
      (markingStore.saves ⟨{ id := "v" }, none⟩ tokenState [[], []]) := by
  have hreached : ∃ before order after, [[], []] = before ++ order :: after ∧
      ((markingStore.saveOnce ⟨{ id := "v" }, none⟩
          (markingStore.saves ⟨{ id := "v" }, none⟩ tokenState before) order).1 = .ok () ∨
        (markingStore.saves ⟨{ id := "v" }, none⟩ tokenState before).env.BreaksOff order.length) :=
    ⟨[], [], [[]], rfl, .inl rfl⟩
  exact (credentials_kept_iff markingCipher_lengthens rfl (by simp [VaultConfig.authHeaders, Memory.vault])
    hreached).mpr ⟨rfl, rfl⟩

/-- One call, and the caller's token is encrypted. -/
theorem token_not_kept : ¬markingStore.CredentialsKept ⟨{ id := "v" }, some 0⟩ tokenState
    (markingStore.saves ⟨{ id := "v" }, some 0⟩ tokenState [["Authorization"]]) := by
  intro h
  have hheaders : ((markingStore.saves ⟨{ id := "v" }, some 0⟩ tokenState
      [["Authorization"]]).memory.vault ⟨{ id := "v" }, some 0⟩).authHeaders =
        [("Authorization", "#Bearer tok")] := by decide +kernel
  have hperm := h.memory.headers
  rw [hheaders] at hperm
  have hsame : [("Authorization", "#Bearer tok")] = [("Authorization", "Bearer tok")] :=
    List.perm_singleton.mp hperm
  simp at hsame

end VaultsSyncer
