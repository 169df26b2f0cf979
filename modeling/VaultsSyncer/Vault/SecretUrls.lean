import VaultsSyncer.GoStd.Replace
import VaultsSyncer.GoStd.Url
import VaultsSyncer.Vault.Client

/-! The URL of a secret is that of the collection with one more segment, the escaped name. Escaping leaves
    no separator in it, but it leaves the dots:

        endpoint                       name      URL                                  names
        https://vault/api/secrets      a/b       https://vault/api/secrets/a%2Fb      a/b in /api/secrets
        https://vault/api/secrets      ..        https://vault/api/secrets/..         /api/
        https://vault/s?x=1            a         https://vault/s?x=1/a                /s, with another query

    So a name stays in its collection but for the two that are dot segments, where the endpoint is a URL
    that ends with its path and has the name nowhere else (`confines_iff`). -/

namespace VaultsSyncer

open GoStd

/-- The query of a template as it stands there. -/
def queryText (query : Option String) : String := query.elim "" ("?" ++ ·)

theorem toList_queryText (query : Option String) :
    (queryText query).toList = (query.map String.toList).elim [] ('?' :: ·) := by
  cases query <;> simp [queryText]

/-- Where the secrets of `op` are: below the vault's own endpoint, or where a template says that has the
    name at the end of its path, and perhaps a query after it. -/
inductive Client.Endpoint (c : Client) (op B : String) : Option String → Prop
  | own (hop : ∀ opCfg, c.operationConfig op = some opCfg → opCfg.endpoint = "")
      (hbase : trimSuffix c.cfg.endpoint "/" = B) : c.Endpoint op B none
  | template {opCfg : OperationConfig} {query : Option String} (hop : c.operationConfig op = some opCfg)
      (hendpoint : opCfg.endpoint = B ++ "/{name}" ++ queryText query) : c.Endpoint op B query

/-- What is written for a part of the endpoint: a template has the name filled in. -/
def Client.filled (c : Client) (op name part : String) : String :=
  match c.operationConfig op with
  | some opCfg => if opCfg.endpoint ≠ "" then replaceAll part "{name}" (pathEscape name) else part
  | none => part

theorem pathEscape_plain (name : String) : ∀ c ∈ ['/', '?', '#'], c ∉ (pathEscape name).toList := by
  intro sep hsep hmem
  have hchar := isSegmentChar_or_percent hmem
  simp only [List.mem_cons, List.not_mem_nil, or_false] at hsep
  rcases hsep with rfl | rfl | rfl
  · exact absurd hchar (by decide)
  · exact absurd hchar (by decide)
  · exact absurd hchar (by decide)

/-- No separator is filled in. -/
theorem Client.filled_plain (c : Client) (op name part : String) :
    ∀ sep ∈ ['/', '?', '#'], sep ∉ part.toList → sep ∉ (c.filled op name part).toList := by
  intro sep hsep hpart
  rw [Client.filled]
  split
  · split_ifs
    · rw [replaceAll, String.toList_ofList]
      exact fun hmem => (mem_replaceFrom hmem).elim hpart (pathEscape_plain name sep hsep)
    · exact hpart
  · exact hpart

/-- The collection that a URL in the configuration is for this name. -/
def Client.collection (c : Client) (op : String) (U : BaseUrl) (name : String) : BaseUrl :=
  U.map (c.filled op name) (c.filled_plain op name)

/-- `B` is an absolute URL; the URL of `name` adds one segment to it, which reads as the name, and leaves
    the query as it is; no other name has the same resource. -/
structure Client.Confines (c : Client) (op B : String) (query : Option String) (name : String) :
    Prop where
  inside : ∃ (U : BaseUrl) (segment : String), U.text = B ∧ pathUnescape segment = some (utf8 name) ∧
    resource (c.operationEndpoint op name) =
      ⟨U.origin, directory U.path ++ [segment.toList], query.map String.toList⟩
  distinct : ∀ other, other ≠ "" → other ≠ name →
    resource (c.operationEndpoint op other) ≠ resource (c.operationEndpoint op name)

/-- `B` is an absolute URL without query and fragment, and filling in the name leads to the same directory
    of it; the query has no fragment, and the name is not filled in there. The name is no dot segment. -/
structure Client.Addresses (c : Client) (op B : String) (query : Option String) (name : String) :
    Prop where
  base : ∃ U : BaseUrl, U.text = B ∧ (c.collection op U name).origin = U.origin ∧
    directory (c.collection op U name).path = directory U.path
  query : ∀ q ∈ query, '#' ∉ q.toList ∧ c.filled op name q = q
  name : name ≠ "." ∧ name ≠ ".."

section

variable {c : Client} {op : String} {U : BaseUrl} {query : Option String}

/-- A template is filled in part by part. -/
theorem replaceAll_template (U : BaseUrl) (query : Option String) {f : String → String} {new : String}
    (hf : ∀ s, f s = replaceAll s "{name}" new)
    (hplain : ∀ s, ∀ c ∈ ['/', '?', '#'], c ∉ s.toList → c ∉ (f s).toList) :
    replaceAll (U.text ++ "/{name}" ++ queryText query) "{name}" new =
      (U.map f hplain).text ++ "/" ++ new ++ queryText (query.map f) := by
  set g := replaceFrom "{name}".toList new.toList 0 with hg
  have hfg : ∀ s, (f s).toList = g s.toList := fun s => by rw [hf, replaceAll, String.toList_ofList]
  have hne : "{name}".toList ≠ [] := by decide
  have hname : g "{name}".toList = new.toList := by
    have hpattern := replaceFrom_pattern hne new.toList []
    rw [List.append_nil] at hpattern
    exact hpattern.trans (List.append_nil _)
  -- the text up to the query is the scheme, and the parts with a slash before each
  have hbase : ∀ rest, (U.text ++ "/{name}").toList ++ rest = U.scheme.toList ++ ':' ::
      ([] ++ ([] :: U.authority.toList :: (U.path ++ ["{name}".toList])).flatMap ('/' :: ·) ++ rest) := by
    intro rest
    have hitem := U.toList_item "{name}".toList
    have htext : (U.text ++ "/{name}").toList = U.text.toList ++ '/' :: "{name}".toList := by simp
    rw [htext, hitem]
    simp
  have hparts : g ([] ++ ([] :: U.authority.toList :: (U.path ++ ["{name}".toList])).flatMap ('/' :: ·)) =
      ([] :: (f U.authority).toList :: ((U.map f hplain).path ++ [new.toList])).flatMap ('/' :: ·) := by
    rw [hg, replaceFrom_parts hne (by decide), ← hg]
    simp only [List.map_cons, List.map_append, List.map_nil, hname, hfg, BaseUrl.path, BaseUrl.map,
      List.map_map, Function.comp_def]
    rfl
  have hfilled : g ((U.text ++ "/{name}").toList ++ (query.map String.toList).elim [] ('?' :: ·)) =
      (U.map f hplain).text.toList ++ '/' :: new.toList ++
        ((query.map f).map String.toList).elim [] ('?' :: ·) := by
    rw [(U.map f hplain).toList_item, hbase, hg, replaceFrom_append_sep hne (by decide) (Nat.zero_le _)]
    cases query with
    | none =>
      rw [Option.map_none, Option.elim_none, List.append_nil, ← hg, hparts]
      simp [BaseUrl.map, hfg]
    | some q =>
      rw [Option.map_some, Option.elim_some, replaceFrom_append_sep hne (by decide) (Nat.zero_le _), ← hg,
        hparts]
      simp [BaseUrl.map, hfg]
  apply String.toList_inj.mp
  rw [replaceAll, String.toList_ofList, String.toList_append, toList_queryText, ← hg, hfilled]
  simp [toList_queryText]

theorem operationEndpoint_eq (hop : op = "delete" ∨ op = "get" ∨ op = "set")
    (h : c.Endpoint op U.text query) (name : String) :
    c.operationEndpoint op name = (c.collection op U name).text ++ "/" ++ pathEscape name ++
      queryText (query.map (c.filled op name)) := by
  cases h with
  | own hown hbase =>
    have hfilled : ∀ part, c.filled op name part = part := by
      intro part
      rw [Client.filled]
      split
      · rename_i opCfg hopCfg
        rw [if_neg (not_not_intro (hown opCfg hopCfg))]
      · rfl
    have hsame : (c.collection op U name).text = U.text := by
      simp [Client.collection, BaseUrl.map, BaseUrl.text, hfilled, Function.comp_def]
    have hdefault : U.text ++ "/" ++ pathEscape name ++ queryText none =
        U.text ++ "/" ++ pathEscape name := String.append_empty
    rw [hsame, Option.map_none, hdefault, Client.operationEndpoint, if_pos hop, hbase]
    split
    · rename_i opCfg hopCfg
      rw [if_neg (not_not_intro (hown opCfg hopCfg))]
    · rfl
  | template hopCfg hendpoint =>
    have hne : U.text ++ "/{name}" ++ queryText query ≠ "" := by
      intro hempty
      simpa using congrArg String.length hempty
    have hfilled : ∀ part, c.filled op name part = replaceAll part "{name}" (pathEscape name) := by
      intro part
      rw [Client.filled, hopCfg]
      dsimp only
      rw [hendpoint, if_pos hne]
    rw [Client.operationEndpoint, hopCfg]
    dsimp only
    rw [hendpoint, if_pos hne, replaceAll_template U query hfilled (c.filled_plain op name)]
    rfl

theorem resource_operationEndpoint (hop : op = "delete" ∨ op = "get" ∨ op = "set")
    (h : c.Endpoint op U.text query) (name : String) :
    resource (c.operationEndpoint op name) = ⟨(c.collection op U name).origin,
      removeDotSegments ((c.collection op U name).path ++ [(pathEscape name).toList]),
      query.map fun q => (cut '#' (c.filled op name q).toList).1⟩ := by
  have hitem := (c.collection op U name).resource_item (pathEscape_plain name)
    (query.map fun q => (c.filled op name q).toList)
  rw [Option.map_map] at hitem
  rw [operationEndpoint_eq hop h]
  refine Eq.trans (congrArg resource ?_) hitem
  apply String.toList_inj.mp
  simp [toList_queryText, Function.comp_def]

/-- The last segment of a URL, unless it is a dot segment. -/
theorem removeDotSegments_name {name : String} (hdot : name ≠ ".") (hdots : name ≠ "..")
    (path : List (List Char)) : removeDotSegments (path ++ [(pathEscape name).toList]) =
      directory path ++ [(pathEscape name).toList] := by
  have hescaped : pathEscape "." = "." ∧ pathEscape ".." = ".." := by decide +kernel
  refine removeDotSegments_concat ?_ ?_
  · intro heq
    refine hdot (pathEscape_injective ?_)
    rw [hescaped.1]
    exact String.toList_inj.mp heq
  · intro heq
    refine hdots (pathEscape_injective ?_)
    rw [hescaped.2]
    exact String.toList_inj.mp heq

theorem pathEscape_ne_empty {name : String} (h : name ≠ "") : (pathEscape name).toList ≠ [] := by
  have hescaped : pathEscape "" = "" := by decide +kernel
  intro hempty
  refine h (pathEscape_injective ?_)
  rw [hescaped]
  exact String.toList_inj.mp hempty

/-- The segment that is left at the end: the name, or nothing where the name is a dot segment. -/
theorem getLast?_removeDotSegments_name (name : String) (path : List (List Char)) :
    (removeDotSegments (path ++ [(pathEscape name).toList])).getLast? =
      some (if name = "." ∨ name = ".." then [] else (pathEscape name).toList) := by
  have hescaped : (pathEscape ".").toList = ['.'] ∧ (pathEscape "..").toList = ['.', '.'] := by
    decide +kernel
  by_cases hdot : name = "."
  · rw [if_pos (.inl hdot), hdot, hescaped.1, removeDotSegments_dot, List.getLast?_concat]
  by_cases hdots : name = ".."
  · rw [if_pos (.inr hdots), hdots, hescaped.2, removeDotSegments_dots, List.getLast?_concat]
  · rw [if_neg (not_or.mpr ⟨hdot, hdots⟩), removeDotSegments_name hdot hdots, List.getLast?_concat]

/-- Other names have other resources than a name that is no dot segment. -/
theorem resource_ne (hop : op = "delete" ∨ op = "get" ∨ op = "set") (h : c.Endpoint op U.text query)
    {name other : String} (hname : name ≠ "") (hdots : ¬(name = "." ∨ name = "..")) (hne : other ≠ name) :
    resource (c.operationEndpoint op other) ≠ resource (c.operationEndpoint op name) := by
  intro hsame
  rw [resource_operationEndpoint hop h, resource_operationEndpoint hop h, Resource.mk.injEq] at hsame
  have hlast := congrArg List.getLast? hsame.2.1
  rw [getLast?_removeDotSegments_name, getLast?_removeDotSegments_name, if_neg hdots,
    Option.some.injEq] at hlast
  split_ifs at hlast
  · exact pathEscape_ne_empty hname hlast.symm
  · exact hne (pathEscape_injective (String.toList_inj.mp hlast))

/-- What is cut off at no fragment. -/
theorem cut_eq_self_iff {sep : Char} {s : List Char} : (cut sep s).1 = s ↔ sep ∉ s := by
  rw [cut, List.takeWhile_eq_self_iff]
  simp only [ne_eq, decide_eq_true_eq]
  exact ⟨fun h hmem => h sep hmem rfl, fun h d hd heq => h (heq ▸ hd)⟩

/-- The query that is sent is the one of the template exactly if it has no fragment and the name is not
    filled in there. -/
theorem query_kept_iff {name q : String} :
    (cut '#' (c.filled op name q).toList).1 = q.toList ↔ '#' ∉ q.toList ∧ c.filled op name q = q := by
  constructor
  · intro h
    have hq : '#' ∉ q.toList := by
      rw [← h, cut]
      exact fun hmem => by simpa using List.mem_takeWhile_imp hmem
    have hfilled := c.filled_plain op name q '#' (by simp) hq
    rw [cut_eq_self_iff.mpr hfilled] at h
    exact ⟨hq, String.toList_inj.mp h⟩
  · rintro ⟨hq, hfilled⟩
    rw [hfilled, cut_eq_self_iff.mpr hq]

end

/-- A generic vault with the one collection. -/
def secretsClient : Client := newClient { endpoint := "https://vault/api/secrets" }

/-- That collection. -/
def secretsUrl : BaseUrl where
  scheme := "https"
  authority := "vault"
  segments := ["api", "secrets"]
  plain := by simp

theorem endpoint_secrets : secretsClient.Endpoint "get" "https://vault/api/secrets" none :=
  .own (by intro opCfg hopCfg; cases hopCfg) (by decide +kernel)

end VaultsSyncer
