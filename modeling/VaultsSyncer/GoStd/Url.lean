import VaultsSyncer.GoStd.Quoting
import VaultsSyncer.GoStd.Strings

/-! URLs as text (package `net/url`, RFC 3986): escaped components, the parts between the separators, and
    the removal of dot segments. An escaped component is unescaped to itself (`unescape_flatMap`), and has
    no separator in it (`mem_escape`); what it may still be is a dot segment. -/

namespace GoStd

/-! ### Escaped components -/

/-- `url.PathUnescape`, and `url.QueryUnescape`, which takes a plus for a space. -/
def unescape (plus : Bool) : List Char → Option Bytes
  | [] => some []
  | c :: cs =>
    if c = '%' then
      match cs with
      | hi :: lo :: cs => do
        let h ← hexValue hi
        let l ← hexValue lo
        let rest ← unescape plus cs
        return UInt8.ofNat (16 * h + l) :: rest
      | _ => none
    else do
      let rest ← unescape plus cs
      return (if plus ∧ c = '+' then utf8 " " else String.utf8EncodeChar c) ++ rest

/-- One byte of an escaped component; the characters to keep are ASCII. -/
def escapeByte (keep : Char → Bool) (b : UInt8) : List Char :=
  let c := Char.ofNat b.toNat
  if b.toNat < 128 ∧ keep c then [c]
  else ['%', upperHexDigit (b.toNat / 16), upperHexDigit (b.toNat % 16)]

theorem pathEscape_eq (s : String) :
    pathEscape s = String.ofList ((utf8 s).flatMap (escapeByte isSegmentChar)) := rfl

/-- The characters that may stand in a query component as they are. -/
def isUnreserved (c : Char) : Bool := c.isAlphanum || c ∈ ['-', '_', '.', '~']

/-- `url.QueryEscape`. -/
def queryEscape (s : Bytes) : String :=
  String.ofList (s.flatMap fun b => if b = 32 then ['+'] else escapeByte isUnreserved b)

/-- `url.PathUnescape`. -/
def pathUnescape (s : String) : Option Bytes := unescape false s.toList

/-- `url.QueryUnescape`. -/
def queryUnescape (s : String) : Option Bytes := unescape true s.toList

theorem hexValue_upperHexDigit : ∀ n < 16, hexValue (upperHexDigit n) = some n := by decide

theorem isAlphanum_upperHexDigit : ∀ n < 16, (upperHexDigit n).isAlphanum = true := by decide

theorem toNat_ofNat_byte {b : UInt8} : (Char.ofNat b.toNat).toNat = b.toNat := by
  have hlt := b.toNat_lt
  have hvalid : b.toNat.isValidChar := Or.inl (by omega)
  rw [Char.ofNat, dif_pos hvalid]
  rfl

theorem utf8EncodeChar_byte {b : UInt8} (h : b.toNat < 128) :
    String.utf8EncodeChar (Char.ofNat b.toNat) = [b] := by
  have hval : (Char.ofNat b.toNat).val.toNat = b.toNat := toNat_ofNat_byte
  simp only [String.utf8EncodeChar, hval]
  rw [if_pos (by omega)]
  simp

section

variable {keep : Char → Bool}

/-- A component has the characters to keep and the percent sign, if the digits are kept. -/
theorem mem_escape {c : Char} {bs : Bytes} (halnum : ∀ c, c.isAlphanum = true → keep c = true)
    (hc : c ∈ bs.flatMap (escapeByte keep)) : keep c = true ∨ c = '%' := by
  obtain ⟨b, -, hc⟩ := List.mem_flatMap.mp hc
  have hlt := b.toNat_lt
  rw [escapeByte] at hc
  split_ifs at hc with hkeep
  · obtain rfl := List.mem_singleton.mp hc
    exact .inl hkeep.2
  · simp only [List.mem_cons, List.not_mem_nil, or_false] at hc
    rcases hc with rfl | rfl | rfl
    · exact .inr rfl
    · exact .inl (halnum _ (isAlphanum_upperHexDigit _ (by omega)))
    · exact .inl (halnum _ (isAlphanum_upperHexDigit _ (by omega)))

theorem unescape_escapeByte {plus : Bool} (hpercent : keep '%' = false)
    (hplus : plus = true → keep '+' = false) (b : UInt8) (rest : List Char) :
    unescape plus (escapeByte keep b ++ rest) = (unescape plus rest).map (b :: ·) := by
  have hlt := b.toNat_lt
  rw [escapeByte]
  split_ifs with h
  · have hne : Char.ofNat b.toNat ≠ '%' := by
      intro heq
      rw [heq, hpercent] at h
      exact absurd h.2 (by simp)
    have hspace : ¬(plus = true ∧ Char.ofNat b.toNat = '+') := by
      rintro ⟨hp, heq⟩
      rw [heq, hplus hp] at h
      exact absurd h.2 (by simp)
    rw [List.cons_append, List.nil_append, unescape.eq_def]
    dsimp only
    rw [if_neg hne, if_neg hspace, utf8EncodeChar_byte h.1]
    cases unescape plus rest <;> rfl
  · have hbyte : UInt8.ofNat (16 * (b.toNat / 16) + b.toNat % 16) = b := by
      rw [Nat.div_add_mod]
      exact UInt8.ofNat_toNat
    rw [List.cons_append, List.cons_append, List.cons_append, List.nil_append, unescape.eq_def]
    dsimp only
    rw [if_pos rfl, hexValue_upperHexDigit _ (by omega), hexValue_upperHexDigit _ (by omega)]
    dsimp only [Option.bind_eq_bind, Option.bind_some]
    rw [hbyte]
    cases unescape plus rest <;> rfl

/-- Escaped byte by byte, unescaped byte by byte. -/
theorem unescape_flatMap {plus : Bool} {esc : UInt8 → List Char}
    (hesc : ∀ b rest, unescape plus (esc b ++ rest) = (unescape plus rest).map (b :: ·)) (bs : Bytes) :
    unescape plus (bs.flatMap esc) = some bs := by
  induction bs with
  | nil => rw [List.flatMap_nil, unescape]
  | cons b bs ih => rw [List.flatMap_cons, hesc, ih, Option.map_some]

end

theorem pathUnescape_pathEscape (s : String) : pathUnescape (pathEscape s) = some (utf8 s) := by
  rw [pathUnescape, pathEscape_eq, String.toList_ofList]
  exact unescape_flatMap (unescape_escapeByte (by decide) (fun h => by cases h)) _

theorem queryUnescape_queryEscape (s : Bytes) : queryUnescape (queryEscape s) = some s := by
  rw [queryUnescape, queryEscape, String.toList_ofList]
  refine unescape_flatMap (fun b rest => ?_) _
  split_ifs with hspace
  · subst hspace
    rw [List.cons_append, List.nil_append, unescape.eq_def]
    dsimp only
    rw [if_neg (by decide), if_pos ⟨rfl, rfl⟩]
    cases unescape true rest <;> rfl
  · exact unescape_escapeByte (by decide) (fun _ => by decide) b rest

theorem pathEscape_injective : Function.Injective pathEscape := by
  intro s t h
  have hsame := pathUnescape_pathEscape s
  rw [h, pathUnescape_pathEscape, Option.some.injEq] at hsame
  exact (utf8_injective hsame).symm

theorem isSegmentChar_or_percent {s : String} {c : Char} (hc : c ∈ (pathEscape s).toList) :
    isSegmentChar c = true ∨ c = '%' := by
  rw [pathEscape_eq, String.toList_ofList] at hc
  exact mem_escape (fun c h => by rw [isSegmentChar, h]; rfl) hc

theorem isUnreserved_or_percent {s : Bytes} {c : Char} (hc : c ∈ (queryEscape s).toList) :
    isUnreserved c = true ∨ c = '%' ∨ c = '+' := by
  rw [queryEscape, String.toList_ofList] at hc
  obtain ⟨b, hb, hc⟩ := List.mem_flatMap.mp hc
  split_ifs at hc with hspace
  · exact .inr (.inr (List.mem_singleton.mp hc))
  · have hmem : c ∈ [b].flatMap (escapeByte isUnreserved) := by simpa using hc
    exact (mem_escape (fun c h => by rw [isUnreserved, h]; rfl) hmem).imp_right .inl

/-! ### Parts of a URL -/

/-- Parts with a slash before each: split at the slashes they are the same parts. -/
theorem splitOn_flatMap_slash {parts : List (List Char)} (h : ∀ p ∈ parts, '/' ∉ p) {first : List Char}
    (hfirst : '/' ∉ first) : (first ++ parts.flatMap ('/' :: ·)).splitOn '/' = first :: parts := by
  induction parts generalizing first with
  | nil => rw [List.flatMap_nil, List.append_nil, List.splitOn_eq_singleton hfirst]
  | cons p parts ih =>
    rw [List.forall_mem_cons] at h
    rw [List.flatMap_cons, List.cons_append, List.splitOn_append_cons_self_of_not_mem hfirst,
      ih h.2 h.1]

theorem toList_join_slash (segments : List String) :
    (String.join (segments.map ("/" ++ ·))).toList = (segments.map String.toList).flatMap ('/' :: ·) := by
  induction segments with
  | nil => rfl
  | cons s segments ih => simp [ih]

/-- One segment on the way: `.` stays where it is, and `..` goes back. -/
def dotStep (out : List (List Char)) (segment : List Char) : List (List Char) :=
  if segment = ['.'] then out
  else if segment = ['.', '.'] then out.dropLast
  else out ++ [segment]

/-- The directory that the segments of a path lead to. -/
def directory (segments : List (List Char)) : List (List Char) := segments.foldl dotStep []

/-- The path without its dot segments (RFC 3986, `remove_dot_segments`); one at the end leaves a slash. -/
def removeDotSegments (segments : List (List Char)) : List (List Char) :=
  directory segments ++
    (if segments.getLast? = some ['.'] ∨ segments.getLast? = some ['.', '.'] then [[]] else [])

theorem removeDotSegments_concat {segments : List (List Char)} {last : List Char} (hdot : last ≠ ['.'])
    (hdots : last ≠ ['.', '.']) :
    removeDotSegments (segments ++ [last]) = directory segments ++ [last] := by
  simp [removeDotSegments, directory, dotStep, hdot, hdots]

theorem removeDotSegments_dot (segments : List (List Char)) :
    removeDotSegments (segments ++ [['.']]) = directory segments ++ [[]] := by
  simp [removeDotSegments, directory, dotStep]

theorem removeDotSegments_dots (segments : List (List Char)) :
    removeDotSegments (segments ++ [['.', '.']]) = (directory segments).dropLast ++ [[]] := by
  simp [removeDotSegments, directory, dotStep]

/-- What a URL names: scheme and authority, the path, and the query. The fragment is not sent. -/
structure Resource where
  origin : List (List Char)
  path : List (List Char)
  query : Option (List Char)
  deriving DecidableEq

/-- The resource of an absolute URL: its text up to the query is split at the slashes, the first three
    parts being `scheme:`, nothing and the authority. -/
def resource (url : String) : Resource :=
  let (hierarchy, query) := cut '?' (cut '#' url.toList).1
  let parts := hierarchy.splitOn '/'
  { origin := parts.take 3, path := removeDotSegments (parts.drop 3), query := query }

/-- An absolute URL that ends with its path. -/
structure BaseUrl where
  scheme : String
  authority : String
  segments : List String
  plain : ∀ s ∈ scheme :: authority :: segments, ∀ c ∈ ['/', '?', '#'], c ∉ s.toList

namespace BaseUrl

variable (B : BaseUrl)

def text : String := B.scheme ++ "://" ++ B.authority ++ String.join (B.segments.map ("/" ++ ·))

def origin : List (List Char) := [B.scheme.toList ++ [':'], [], B.authority.toList]

def path : List (List Char) := B.segments.map String.toList

/-- The URL with its parts changed, by a function that puts no separators in. -/
def map (f : String → String)
    (hf : ∀ s, ∀ c ∈ ['/', '?', '#'], c ∉ s.toList → c ∉ (f s).toList) : BaseUrl where
  scheme := f B.scheme
  authority := f B.authority
  segments := B.segments.map f
  plain := by
    intro s hs c hc
    rw [← List.map_cons, ← List.map_cons] at hs
    obtain ⟨t, ht, rfl⟩ := List.mem_map.mp hs
    exact hf t c hc (B.plain t ht c hc)

/-- The scheme is followed by parts with a slash before each. -/
theorem toList_text : B.text.toList =
    B.scheme.toList ++ [':'] ++ ([] :: B.authority.toList :: B.path).flatMap ('/' :: ·) := by
  rw [text, String.toList_append, toList_join_slash]
  simp [path]

theorem plain_scheme {c : Char} (hc : c ∈ ['/', '?', '#']) : c ∉ B.scheme.toList :=
  B.plain _ List.mem_cons_self c hc

theorem plain_parts {c : Char} (hc : c ∈ ['/', '?', '#']) {p : List Char}
    (hp : p ∈ B.authority.toList :: B.path) : c ∉ p := by
  rcases List.mem_cons.mp hp with rfl | hp
  · exact B.plain _ (by simp) c hc
  · obtain ⟨s, hs, rfl⟩ := List.mem_map.mp hp
    exact B.plain s (by simp [hs]) c hc

/-- The URL of an item is the scheme and the parts, the last of them the name. -/
theorem toList_item (name : List Char) : B.text.toList ++ '/' :: name = B.scheme.toList ++ [':'] ++
    ([] :: B.authority.toList :: (B.path ++ [name])).flatMap ('/' :: ·) := by
  rw [toList_text]
  simp

section

variable {name : List Char} (hname : ∀ c ∈ ['/', '?', '#'], c ∉ name)

include hname

theorem plain_item {c : Char} (hc : c ∈ ['/', '?', '#']) {p : List Char}
    (hp : p ∈ [] :: B.authority.toList :: (B.path ++ [name])) : c ∉ p := by
  rw [List.mem_cons, ← List.cons_append, List.mem_append, List.mem_singleton] at hp
  rcases hp with rfl | hp | rfl
  · exact List.not_mem_nil
  · exact B.plain_parts hc hp
  · exact hname c hc

theorem splitOn_item : (B.text.toList ++ '/' :: name).splitOn '/' =
    (B.scheme.toList ++ [':']) :: [] :: B.authority.toList :: (B.path ++ [name]) := by
  have hscheme : '/' ∉ B.scheme.toList ++ [':'] := by simpa using B.plain_scheme (c := '/') (by simp)
  rw [toList_item]
  exact splitOn_flatMap_slash (fun p hp => B.plain_item hname (by simp) hp) hscheme

theorem notMem_item {c : Char} (hc : c ∈ ['?', '#']) : c ∉ B.text.toList ++ '/' :: name := by
  have hsep : c ∈ ['/', '?', '#'] := List.mem_cons_of_mem _ hc
  intro hmem
  rw [toList_item, List.mem_append, List.mem_append, List.mem_flatMap] at hmem
  rcases hmem with (hmem | hmem) | ⟨p, hp, hmem⟩
  · exact B.plain_scheme hsep hmem
  · rw [List.mem_singleton.mp hmem] at hc
    exact absurd hc (by decide)
  · rcases List.mem_cons.mp hmem with rfl | hmem
    · exact absurd hc (by decide)
    · exact B.plain_item hname hsep hp hmem

/-- What a URL in the collection `B` names, under a name that has no separators in it. A fragment ends the
    query. -/
theorem resource_item (query : Option (List Char)) :
    resource (String.ofList (B.text.toList ++ '/' :: name ++ query.elim [] ('?' :: ·))) =
      ⟨B.origin, removeDotSegments (B.path ++ [name]), query.map fun q => (cut '#' q).1⟩ := by
  have hhash : '#' ∉ B.text.toList ++ '/' :: name := B.notMem_item hname (by simp)
  have hmark : '?' ∉ B.text.toList ++ '/' :: name := B.notMem_item hname (by simp)
  have hcut : (cut '#' (B.text.toList ++ '/' :: name ++ query.elim [] ('?' :: ·))).1 =
      B.text.toList ++ '/' :: name ++ (query.map fun q => (cut '#' q).1).elim [] ('?' :: ·) := by
    cases query with
    | none =>
      rw [Option.map_none, Option.elim_none, List.append_nil, cut_of_notMem hhash]
    | some q =>
      have hall : ∀ c ∈ B.text.toList ++ '/' :: name, decide (c ≠ '#') = true :=
        fun c hc => decide_eq_true fun heq => hhash (heq ▸ hc)
      rw [cut, Option.elim_some, List.takeWhile_append_of_pos hall]
      rfl
  have hquery : cut '?' (B.text.toList ++ '/' :: name ++
      (query.map fun q => (cut '#' q).1).elim [] ('?' :: ·)) =
        (B.text.toList ++ '/' :: name, query.map fun q => (cut '#' q).1) := by
    cases query with
    | none =>
      rw [Option.map_none, Option.elim_none, List.append_nil]
      exact cut_of_notMem hmark
    | some q => exact cut_append hmark _
  rw [resource, String.toList_ofList, hcut]
  dsimp only
  rw [hquery, B.splitOn_item hname]
  rfl

end

end BaseUrl

end GoStd
