import Mathlib.Data.String.Basic
import VaultsSyncer.GoStd.Url

/-! The form parameters of a token request (`encodeParams` in `vault/client.go`). The pairs are sorted as
    texts, so the order of the map's entries does not show; and neither separator stands in an escaped
    key or value, so the form can be taken apart again (`form_decodes`). -/

namespace VaultsSyncer

open GoStd

/-- `sort.Strings`. -/
def sortStrings (l : List String) : List String := l.mergeSort fun a b => decide (a ≤ b)

theorem sortStrings_perm {l l' : List String} (h : l.Perm l') : sortStrings l = sortStrings l' := by
  have hsorted (l : List String) : (sortStrings l).Pairwise (· ≤ ·) := by
    refine (List.pairwise_mergeSort ?_ ?_ l).imp of_decide_eq_true
    · intro a b c hab hbc
      exact decide_eq_true ((of_decide_eq_true hab).trans (of_decide_eq_true hbc))
    · intro a b
      simpa using le_total a b
  refine List.Perm.eq_of_pairwise (fun _ _ _ _ => le_antisymm) (hsorted l) (hsorted l') ?_
  exact (List.mergeSort_perm l _).trans (h.trans (List.mergeSort_perm l' _).symm)

/-- One parameter. -/
def encodePair (e : Bytes × Bytes) : String := queryEscape e.1 ++ "=" ++ queryEscape e.2

/-- Encodes a map of parameters as application/x-www-form-urlencoded. -/
def encodeParams (params : List (Bytes × Bytes)) : String :=
  "&".intercalate (sortStrings (params.map encodePair))

/-- One part of a form, split at the first `=`. -/
def decodePair (part : String) : Option (Bytes × Bytes) := do
  let (k, v) := cut '=' part.toList
  let key ← unescape true k
  let value ← unescape true (v.getD [])
  return (key, value)

/-- A form split at the `&`; like `url.ParseQuery`, this takes an empty part for none. -/
def decodeParams (form : String) : Option (List (Bytes × Bytes)) :=
  ((split form '&').filter (· ≠ "")).mapM decodePair

/-! ### Taking a form apart -/

theorem notMem_queryEscape {sep : Char} (hsep : sep ∈ ['&', '=']) (s : Bytes) :
    sep ∉ (queryEscape s).toList := by
  intro hmem
  have hchar := isUnreserved_or_percent hmem
  rw [List.mem_cons, List.mem_singleton] at hsep
  rcases hsep with rfl | rfl
  · exact absurd hchar (by decide)
  · exact absurd hchar (by decide)

theorem toList_encodePair (e : Bytes × Bytes) :
    (encodePair e).toList = (queryEscape e.1).toList ++ '=' :: (queryEscape e.2).toList := by
  simp [encodePair]

theorem notMem_encodePair (e : Bytes × Bytes) : '&' ∉ (encodePair e).toList := by
  have hkey := notMem_queryEscape (show '&' ∈ ['&', '='] by simp) e.1
  have hvalue := notMem_queryEscape (show '&' ∈ ['&', '='] by simp) e.2
  simp [toList_encodePair, hkey, hvalue]

theorem encodePair_ne_empty (e : Bytes × Bytes) : encodePair e ≠ "" := by
  intro hempty
  have hlist := congrArg String.toList hempty
  rw [toList_encodePair] at hlist
  simp at hlist

/-- The first `=` of a pair is the one between its key and its value. -/
theorem decodePair_encodePair (e : Bytes × Bytes) : decodePair (encodePair e) = some e := by
  have hkey := queryUnescape_queryEscape e.1
  have hvalue := queryUnescape_queryEscape e.2
  rw [queryUnescape] at hkey hvalue
  rw [decodePair, toList_encodePair, cut_append (notMem_queryEscape (by simp) e.1)]
  simp [hkey, hvalue]

/-- Parts without the separator, joined and split. -/
theorem split_intercalate {parts : List String} (hne : parts ≠ []) (h : ∀ p ∈ parts, '&' ∉ p.toList) :
    split ("&".intercalate parts) '&' = parts := by
  have hsep : "&".toList = ['&'] := by decide
  rw [split, String.toList_intercalate, hsep, List.splitOn_intercalate]
  · simp [List.map_map, Function.comp_def]
  · intro l hl
    obtain ⟨p, hp, rfl⟩ := List.mem_map.mp hl
    exact h p hp
  · simpa using hne

theorem mapM_decodePair : ∀ {parts : List String}, (∀ p ∈ parts, ∃ e, decodePair p = some e) →
    parts.mapM decodePair = some (parts.filterMap decodePair)
  | [], _ => rfl
  | p :: parts, h => by
      rw [List.forall_mem_cons] at h
      obtain ⟨e, he⟩ := h.1
      rw [List.mapM_cons, he, mapM_decodePair h.2, List.filterMap_cons_some he]
      rfl

/-- Whatever order the entries of a map are taken in, the form is the same one, and taken apart it has
    the entries of the map, each key once. -/
theorem form_decodes {params order : List (Bytes × Bytes)} (hnodup : (params.map Prod.fst).Nodup)
    (horder : order.Perm params) : encodeParams order = encodeParams params ∧
      ∃ decoded, decodeParams (encodeParams order) = some decoded ∧ decoded.Perm params ∧
        (decoded.map Prod.fst).Nodup := by
  have hsame : sortStrings (order.map encodePair) = sortStrings (params.map encodePair) :=
    sortStrings_perm (horder.map encodePair)
  refine ⟨by rw [encodeParams, encodeParams, hsame], ?_⟩
  rw [encodeParams, hsame]
  have hperm : (sortStrings (params.map encodePair)).Perm (params.map encodePair) :=
    List.mergeSort_perm _ _
  have hpairs : ∀ p ∈ sortStrings (params.map encodePair), ∃ e, p = encodePair e := by
    intro p hp
    obtain ⟨e, -, rfl⟩ := List.mem_map.mp (hperm.mem_iff.mp hp)
    exact ⟨e, rfl⟩
  have hparts : (split ("&".intercalate (sortStrings (params.map encodePair))) '&').filter (· ≠ "") =
      sortStrings (params.map encodePair) := by
    rcases eq_or_ne (sortStrings (params.map encodePair)) [] with hnil | hne
    · rw [hnil]
      decide +kernel
    · rw [split_intercalate hne]
      · refine List.filter_eq_self.mpr fun p hp => decide_eq_true ?_
        obtain ⟨e, rfl⟩ := hpairs p hp
        exact encodePair_ne_empty e
      · intro p hp
        obtain ⟨e, rfl⟩ := hpairs p hp
        exact notMem_encodePair e
  have hdecoded : ((sortStrings (params.map encodePair)).filterMap decodePair).Perm params := by
    refine (hperm.filterMap decodePair).trans ?_
    rw [List.filterMap_map, show decodePair ∘ encodePair = some from funext decodePair_encodePair,
      List.filterMap_some]
  refine ⟨_, ?_, hdecoded, ((hdecoded.map Prod.fst).nodup_iff).mpr hnodup⟩
  rw [decodeParams, hparts]
  refine mapM_decodePair fun p hp => ?_
  obtain ⟨e, rfl⟩ := hpairs p hp
  exact ⟨e, decodePair_encodePair e⟩

/-- A secret with both separators in it. -/
theorem form_decodes_pair :
    encodeParams [(utf8 "scope", utf8 "api"), (utf8 "client_secret", utf8 "a&b=c")] =
        encodeParams [(utf8 "client_secret", utf8 "a&b=c"), (utf8 "scope", utf8 "api")] ∧
      ∃ decoded, decodeParams (encodeParams
          [(utf8 "scope", utf8 "api"), (utf8 "client_secret", utf8 "a&b=c")]) = some decoded ∧
        decoded.Perm [(utf8 "client_secret", utf8 "a&b=c"), (utf8 "scope", utf8 "api")] ∧
        (decoded.map Prod.fst).Nodup :=
  form_decodes (by decide +kernel) (.swap _ _ _)

end VaultsSyncer
