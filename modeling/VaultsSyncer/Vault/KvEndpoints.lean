import VaultsSyncer.GoStd.Replace
import VaultsSyncer.GoStd.Url
import VaultsSyncer.Vault.Client

/-! The endpoints of a HashiCorp KV v2 mount. Secrets are read and written below `data`, and listed and
    deleted below `metadata`:

        https://vault.example.com/v1/secret/data/team        the configured endpoint
        https://vault.example.com/v1/secret/metadata/team    where to list and delete

    The client rewrites the first part `data` that has another one after it, else the last part; so it
    finds the one behind the mount unless the host or the mount is itself called `data`. -/

namespace VaultsSyncer

open GoStd

/-- A mount of the KV engine, and a folder in it. -/
structure KvMount where
  scheme : String
  host : String
  mount : String
  folders : List String
  parts : ∀ s ∈ scheme :: host :: mount :: folders, s ≠ "" ∧ '/' ∉ s.toList

/-- What both endpoints start from. -/
def metadataBase (base : String) : String :=
  if contains base "/data/" then replaceOne base "/data/" "/metadata/"
  else if hasSuffix base "/data" then trimSuffix base "/data" ++ "/metadata"
  else base

theorem hashiCorpListEndpoint_eq (base : String) :
    hashiCorpListEndpoint base = trimSuffix (metadataBase base) "/" ++ "?list=true" := rfl

theorem hashiCorpDeleteEndpoint_eq (base : String) :
    hashiCorpDeleteEndpoint base = trimSuffix (metadataBase base) "/" ++ "/{name}" := rfl

namespace KvMount

variable (m : KvMount)

/-- The folder as the engine `kv` of this server has it, below the mount `mount` of `host`. -/
def url (host mount kv : String) : String :=
  m.scheme ++ "://" ++ host ++ "/v1/" ++ mount ++ "/" ++ kv ++ String.join (m.folders.map ("/" ++ ·))

/-- The folder below `kv`. -/
def below (kv : String) : String := m.url m.host m.mount kv

theorem toList_url (host mount kv : String) : (m.url host mount kv).toList =
    m.scheme.toList ++ [':'] ++ ([] :: host.toList :: "v1".toList :: mount.toList :: kv.toList ::
      m.folders.map String.toList).flatMap ('/' :: ·) := by
  rw [url, String.toList_append, toList_join_slash]
  simp

theorem parts_url {host mount kv : String} (hhost : '/' ∉ host.toList) (hmount : '/' ∉ mount.toList)
    (hkv : '/' ∉ kv.toList) : ∀ p ∈ [] :: host.toList :: "v1".toList :: mount.toList :: kv.toList ::
      m.folders.map String.toList, '/' ∉ p := by
  have hv1 : '/' ∉ "v1".toList := by decide
  intro p hp
  simp only [List.mem_cons, List.mem_map] at hp
  rcases hp with rfl | rfl | rfl | rfl | rfl | ⟨s, hs, rfl⟩
  · exact List.not_mem_nil
  · exact hhost
  · exact hv1
  · exact hmount
  · exact hkv
  · exact (m.parts s (by simp [hs])).2

/-- The rewrite, part by part. -/
theorem metadataBase_url {host mount : String} (hhost : '/' ∉ host.toList)
    (hmount : '/' ∉ mount.toList) : metadataBase (m.url host mount "data") =
      match replacePart "data".toList "metadata".toList ([] :: host.toList :: "v1".toList ::
        mount.toList :: "data".toList :: m.folders.map String.toList) with
      | some ps => String.ofList (m.scheme.toList ++ [':'] ++ ps.flatMap ('/' :: ·))
      | none => if hasSuffix (m.url host mount "data") "/data" then
          trimSuffix (m.url host mount "data") "/data" ++ "/metadata" else m.url host mount "data" := by
  have hscheme : '/' ∉ m.scheme.toList ++ [':'] := by
    have hplain := (m.parts m.scheme (by simp)).2
    simpa using hplain
  have hold : "/data/".toList = '/' :: "data".toList ++ ['/'] := by decide
  have hnew : "/metadata/".toList = '/' :: "metadata".toList ++ ['/'] := by decide
  have hdata : '/' ∉ "data".toList := by decide
  have hfirst := replaceFirst_parts "metadata".toList hdata (m.parts_url hhost hmount hdata) hscheme
  rw [← toList_url, ← hold, ← hnew] at hfirst
  rw [metadataBase, contains, isSome_replaceFirst _ [] "/metadata/".toList, replaceOne, hfirst]
  cases replacePart _ _ _ <;> rfl

/-- The first part `data` that has another one after it: host, mount or engine, or none. -/
theorem replacePart_data (host mount : String) (folders : List (List Char)) :
    replacePart "data".toList "metadata".toList
      ([] :: host.toList :: "v1".toList :: mount.toList :: "data".toList :: folders) =
    if host = "data" then
      some ([] :: "metadata".toList :: "v1".toList :: mount.toList :: "data".toList :: folders)
    else if mount = "data" then
      some ([] :: host.toList :: "v1".toList :: "metadata".toList :: "data".toList :: folders)
    else if folders = [] then none
    else some ([] :: host.toList :: "v1".toList :: mount.toList :: "metadata".toList :: folders) := by
  have hempty : ([] : List Char) ≠ "data".toList := by decide
  have hv1 : "v1".toList ≠ "data".toList := by decide
  simp only [replacePart, hempty, hv1, if_false, String.toList_inj]
  split_ifs with hhost hmount hfolders
  · rfl
  · rfl
  · subst hfolders
    rfl
  · obtain ⟨folder, folders, rfl⟩ := List.exists_cons_of_ne_nil hfolders
    rw [replacePart, if_pos rfl]
    rfl

/-- Which `data` the client finds. -/
theorem metadataBase_below : metadataBase (m.below "data") =
    if m.host = "data" then m.url "metadata" m.mount "data"
    else if m.mount = "data" then m.url m.host "metadata" "data"
    else m.below "metadata" := by
  have hback (host mount kv : String) : String.ofList (m.scheme.toList ++ [':'] ++ ([] ::
      host.toList :: "v1".toList :: mount.toList :: kv.toList ::
        m.folders.map String.toList).flatMap ('/' :: ·)) = m.url host mount kv := by
    rw [← toList_url, String.ofList_toList]
  rw [below, below, metadataBase_url m (m.parts _ (by simp)).2 (m.parts _ (by simp)).2,
    replacePart_data]
  by_cases hhost : m.host = "data"
  · rw [if_pos hhost, if_pos hhost]
    exact hback _ _ _
  by_cases hmount : m.mount = "data"
  · rw [if_neg hhost, if_pos hmount, if_neg hhost, if_pos hmount]
    exact hback _ _ _
  rw [if_neg hhost, if_neg hmount, if_neg hhost, if_neg hmount]
  by_cases hfolders : m.folders = []
  · -- nothing comes after the last part: it is found as a suffix
    have hurl (kv : String) : m.url m.host m.mount kv =
        m.scheme ++ "://" ++ m.host ++ "/v1/" ++ m.mount ++ ("/" ++ kv) := by
      rw [url, hfolders]
      simp [String.append_assoc]
    have hsuffix : "/" ++ "data" = "/data" := by decide
    rw [if_pos (List.map_eq_nil_iff.mpr hfolders)]
    dsimp only
    rw [hurl, hurl, hsuffix, if_pos (hasSuffix_append _ _), trimSuffix_append]
    rfl
  · rw [if_neg (hfolders ∘ List.map_eq_nil_iff.mp)]
    exact hback _ _ _

/-- There is no slash at the end to trim. -/
theorem trimSuffix_url {host mount kv : String} (hkv : kv ≠ "" ∧ '/' ∉ kv.toList) :
    trimSuffix (m.url host mount kv) "/" = m.url host mount kv := by
  obtain ⟨pre, last, hlast, hurl⟩ : ∃ pre last, (last ≠ "" ∧ '/' ∉ last.toList) ∧
      m.url host mount kv = pre ++ last := by
    rcases List.eq_nil_or_concat m.folders with hnil | ⟨folders, folder, hfolders⟩
    · exact ⟨m.scheme ++ "://" ++ host ++ "/v1/" ++ mount ++ "/", kv, hkv, by simp [url, hnil]⟩
    · refine ⟨m.scheme ++ "://" ++ host ++ "/v1/" ++ mount ++ "/" ++ kv ++
        String.join (folders.map ("/" ++ ·)) ++ "/", folder, m.parts _ (by simp [hfolders]), ?_⟩
      simp [url, hfolders, String.append_assoc]
  refine trimSuffix_of_not fun hslash => ?_
  obtain ⟨cs, c, hc⟩ := (List.eq_nil_or_concat last.toList).resolve_left (by simpa using hlast.1)
  have hend : '/' = c := by
    obtain ⟨t, ht⟩ := hslash
    rw [hurl, String.toList_append, hc, List.concat_eq_append, ← List.append_assoc] at ht
    simpa using congrArg List.getLast? ht
  exact hlast.2 (by rw [hc, hend]; simp)

/-- An endpoint tells the host, the mount and the engine. -/
theorem url_injective {host mount kv host' mount' kv' : String}
    (h : ∀ s ∈ [host, mount, kv, host', mount', kv'], '/' ∉ s.toList)
    (heq : m.url host mount kv = m.url host' mount' kv') : host = host' ∧ mount = mount' ∧ kv = kv' := by
  have hscheme : '/' ∉ m.scheme.toList ++ [':'] := by
    have hplain := (m.parts m.scheme (by simp)).2
    simpa using hplain
  have hsplit := congrArg (·.toList.splitOn '/') heq
  rw [toList_url, toList_url,
    splitOn_flatMap_slash (m.parts_url (h _ (by simp)) (h _ (by simp)) (h _ (by simp))) hscheme,
    splitOn_flatMap_slash (m.parts_url (h _ (by simp)) (h _ (by simp)) (h _ (by simp))) hscheme] at hsplit
  simpa [String.toList_inj] using hsplit

/-- Lists and deletes go below the engine's `metadata`, to the same folder of the same mount. -/
def Rewritten : Prop :=
  hashiCorpListEndpoint (m.below "data") = m.below "metadata" ++ "?list=true" ∧
    hashiCorpDeleteEndpoint (m.below "data") = m.below "metadata" ++ "/{name}"

end KvMount

/-- The part behind the mount is rewritten exactly if neither the host nor the mount is called `data`. -/
theorem kv_rewritten_iff (m : KvMount) : m.Rewritten ↔ m.host ≠ "data" ∧ m.mount ≠ "data" := by
  have hkv : ∀ kv ∈ ["data", "metadata"], kv ≠ "" ∧ '/' ∉ kv.toList := by decide
  have htrim : trimSuffix (metadataBase (m.below "data")) "/" = metadataBase (m.below "data") := by
    rw [m.metadataBase_below]
    split_ifs
    · exact m.trimSuffix_url (hkv _ (by simp))
    · exact m.trimSuffix_url (hkv _ (by simp))
    · exact m.trimSuffix_url (hkv _ (by simp))
  rw [KvMount.Rewritten, hashiCorpListEndpoint_eq, hashiCorpDeleteEndpoint_eq, htrim, m.metadataBase_below]
  constructor
  · rintro ⟨hlist, -⟩
    have hhost := (m.parts m.host (by simp)).2
    have hmount := (m.parts m.mount (by simp)).2
    have hmetadata := (hkv "metadata" (by simp)).2
    have hdata := (hkv "data" (by simp)).2
    split_ifs at hlist with h₁ h₂
    · have hurl : m.url "metadata" m.mount "data" = m.url m.host m.mount "metadata" :=
        (String.append_left_inj _).mp hlist
      obtain ⟨hsame, -⟩ := m.url_injective (by simp [*]) hurl
      exact absurd (hsame.trans h₁) (by decide)
    · have hurl : m.url m.host "metadata" "data" = m.url m.host m.mount "metadata" :=
        (String.append_left_inj _).mp hlist
      obtain ⟨-, hsame, -⟩ := m.url_injective (by simp [*]) hurl
      exact absurd (hsame.trans h₂) (by decide)
    · exact ⟨h₁, h₂⟩
  · rintro ⟨hhost, hmount⟩
    rw [if_neg hhost, if_neg hmount]
    exact ⟨rfl, rfl⟩

/-- A mount called `data`. -/
def dataMount : KvMount where
  scheme := "https"
  host := "vault.example.com"
  mount := "data"
  folders := []
  parts := by decide

/-- Its own name is rewritten. -/
theorem mount_rewritten : ¬∀ m : KvMount, m.Rewritten := by
  intro hall
  have hlist : hashiCorpListEndpoint (dataMount.below "data") =
      "https://vault.example.com/v1/metadata/data?list=true" := by decide +kernel
  rw [(hall dataMount).1] at hlist
  exact absurd hlist (by decide +kernel)

end VaultsSyncer
