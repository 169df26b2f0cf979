import VaultsSyncer.GoStd.Url

/-! Which handler a request goes to (package `net/http`, `ServeMux`; patterns without a host). The path is
    cut into segments, each of which is unescaped; a segment of a pattern is text or a wildcard, and a
    pattern that ends in a slash goes on for ever. Where several patterns match, text goes before a
    wildcard, and a wildcard before the rest of the path.

        "GET /a/{id}"     /a/x  with id = x,  not /a/  and not /a/x/y
        "/a/"             /a/, /a/x, /a/x/y, …;  /a is redirected to /a/ -/

namespace GoStd

/-! ### Paths -/

/-- One segment of an escaped path; what is not well escaped stands for itself. -/
def unescapeSegment (s : List Char) : String :=
  ((unescape false s).bind fun bytes => String.fromUTF8? ⟨bytes.toArray⟩).getD (String.ofList s)

/-- The segments of a path that is split at its slashes; a slash at the end is a segment of its own. -/
def segmentsOf : List (List Char) → List String
  | [] => []
  | [last] => [if last = [] then "/" else unescapeSegment last]
  | s :: rest => unescapeSegment s :: segmentsOf rest

def pathSegments (path : String) : List String := segmentsOf (path.toList.splitOn '/').tail

/-- One segment on the way of `path.Clean`. -/
def cleanStep (out : List (List Char)) (segment : List Char) : List (List Char) :=
  if segment = [] then out else dotStep out segment

/-- The canonical path: from the root, without `.` and `..` and without empty segments. -/
def cleanPath (p : String) : String :=
  let rooted := if p.toList.head? = some '/' then p.toList else '/' :: p.toList
  let segments := (rooted.splitOn '/').foldl cleanStep []
  let clean := '/' :: ['/'].intercalate segments
  String.ofList (if rooted.getLast? = some '/' ∧ segments ≠ [] then clean ++ ['/'] else clean)

/-! ### Patterns -/

namespace ServeMux

inductive Segment where
  | lit (s : String)
  | wild (name : String)
  deriving DecidableEq

/-- A method, any if it is empty, and a path; `multi` if it ends in a slash. -/
structure Pattern where
  method : String := ""
  segments : List Segment
  multi : Bool := false
  deriving DecidableEq

variable {η : Type}

/-- A node of the routing tree: the routes below it, each with what is left of its pattern. -/
abbrev Node (η : Type) := List (List Segment × Pattern × η)

/-- The handler found, and what its wildcards stand for. -/
structure Found (η : Type) where
  pattern : Pattern
  handler : η
  values : List String
  /-- The whole path was needed. -/
  exact : Bool

/-- `r.PathValue(name)`. -/
def Found.pathValue (f : Found η) (name : String) : String :=
  ((f.pattern.segments.filterMap fun
    | .lit _ => none
    | .wild n => some n).zip f.values).lookup name |>.getD ""

/-- The child of a node for the segments that satisfy `p`. -/
def child (p : Segment → Bool) (n : Node η) : Node η :=
  n.filterMap fun r =>
    match r.1 with
    | [] => none
    | seg :: rest => if p seg then some (rest, r.2) else none

def isLit (s : String) : Segment → Bool
  | .lit t => t = s
  | .wild _ => false

def isWild : Segment → Bool
  | .lit _ => false
  | .wild _ => true

/-- The route that ends at a node. -/
def leaf (multi : Bool) (n : Node η) : Option (Pattern × η) :=
  (n.find? fun r => r.1 = [] ∧ r.2.1.multi = multi).map Prod.snd

/-- Matches a path against the routes below a node. -/
def matchPath : List String → Node η → List String → Option (Found η)
  | [], n, ms => (leaf false n).map fun r => ⟨r.1, r.2, ms, true⟩
  | seg :: rest, n, ms =>
    (matchPath rest (child (isLit seg) n) ms).or <|
      (if seg ≠ "/" then matchPath rest (child isWild n) (ms ++ [seg]) else none).or <|
        (leaf true n).map fun r => ⟨r.1, r.2, ms, seg :: rest = ["/"]⟩

/-- The node of the patterns with this method. -/
def ofMethod (routes : List (Pattern × η)) (method : String) : Node η :=
  (routes.filter fun r => r.1.method = method).map fun r => (r.1.segments, r)

/-- Matches the method and the path: a `GET` pattern is for `HEAD` too. -/
def matchMethodAndPath (routes : List (Pattern × η)) (method : String) (path : List String) :
    Option (Found η) :=
  (matchPath path (ofMethod routes method) []).or <|
    (if method = "HEAD" then matchPath path (ofMethod routes "GET") [] else none).or <|
      matchPath path (ofMethod routes "") []

/-- What becomes of a request. -/
inductive Dispatch (η : Type) where
  | handler (f : Found η)
  | redirect
  | methodNotAllowed
  | notFound

/-- Is there a match once a slash is added, and none without? -/
def redirects (routes : List (Pattern × η)) (method : String) (path : List String) : Bool :=
  !((matchMethodAndPath routes method path).map Found.exact).getD false &&
    path.getLast? ≠ some "/" &&
    ((matchMethodAndPath routes method (path ++ ["/"])).map Found.exact).getD false

/-- Would another method have found a handler? -/
def otherMethod (routes : List (Pattern × η)) (path : List String) : Bool :=
  routes.any fun r => r.1.method ≠ "" &&
    ((matchPath path (ofMethod routes r.1.method) []).isSome ||
      (path.getLast? ≠ some "/" && (matchPath (path ++ ["/"]) (ofMethod routes r.1.method) []).isSome))

/-- `findHandler`: where a method and an escaped path lead. Only `CONNECT` takes the path as it is. -/
def findHandler (routes : List (Pattern × η)) (method escapedPath : String) : Dispatch η :=
  let path := if method = "CONNECT" then escapedPath else cleanPath escapedPath
  if redirects routes method (pathSegments path) ∨ path ≠ escapedPath then .redirect
  else ((matchMethodAndPath routes method (pathSegments path)).map Dispatch.handler).getD
    (if otherMethod routes (pathSegments path) then .methodNotAllowed else .notFound)

/-- Where there is no route, nothing is found. -/
@[simp] theorem matchPath_nil (path ms : List String) : matchPath path ([] : Node η) ms = none := by
  induction path generalizing ms with
  | nil => rfl
  | cons seg rest ih => simp [matchPath, child, ih, leaf]

/-! ### What is found is a route -/

theorem mem_child {p : Segment → Bool} {n : Node η} {rest : List Segment} {r : Pattern × η}
    (h : (rest, r) ∈ child p n) : ∃ seg, p seg = true ∧ (seg :: rest, r) ∈ n := by
  obtain ⟨⟨segs, r'⟩, hmem, heq⟩ := List.mem_filterMap.mp h
  rcases segs with _ | ⟨seg, rest'⟩
  · cases heq
  · dsimp only at heq
    split_ifs at heq with hp
    cases heq
    exact ⟨seg, hp, hmem⟩

theorem mem_of_leaf {multi : Bool} {n : Node η} {r : Pattern × η} (h : leaf multi n = some r) :
    ∃ segs, (segs, r) ∈ n := by
  obtain ⟨x, hx, rfl⟩ := Option.map_eq_some_iff.mp h
  exact ⟨x.1, List.mem_of_find?_eq_some hx⟩

theorem mem_of_matchPath {path : List String} {n : Node η} {ms : List String} {f : Found η}
    (h : matchPath path n ms = some f) : ∃ segs, (segs, f.pattern, f.handler) ∈ n := by
  have hleaf : ∀ {multi : Bool} {n : Node η} {ms : List String} {exact : Bool},
      (leaf multi n).map (fun r => (⟨r.1, r.2, ms, exact⟩ : Found η)) = some f →
        ∃ segs, (segs, f.pattern, f.handler) ∈ n := by
    intro multi n ms exact hf
    obtain ⟨r, hr, rfl⟩ := Option.map_eq_some_iff.mp hf
    exact mem_of_leaf hr
  induction path generalizing n ms with
  | nil => exact hleaf h
  | cons seg rest ih =>
    rw [matchPath, Option.or_eq_some_iff, Option.or_eq_some_iff] at h
    rcases h with h | ⟨-, h | ⟨-, h⟩⟩
    · obtain ⟨segs, hsegs⟩ := ih h
      obtain ⟨seg', -, hmem⟩ := mem_child hsegs
      exact ⟨_, hmem⟩
    · split_ifs at h
      obtain ⟨segs, hsegs⟩ := ih h
      obtain ⟨seg', -, hmem⟩ := mem_child hsegs
      exact ⟨_, hmem⟩
    · exact hleaf h

theorem mem_of_ofMethod {routes : List (Pattern × η)} {method : String} {segs : List Segment}
    {r : Pattern × η} (h : (segs, r) ∈ ofMethod routes method) : r ∈ routes := by
  obtain ⟨r', hr', heq⟩ := List.mem_map.mp h
  cases heq
  exact (List.mem_filter.mp hr').1

theorem mem_of_matchMethodAndPath {routes : List (Pattern × η)} {method : String} {path : List String}
    {f : Found η} (h : matchMethodAndPath routes method path = some f) :
    (f.pattern, f.handler) ∈ routes := by
  have hpath : ∀ {m : String}, matchPath path (ofMethod routes m) [] = some f →
      (f.pattern, f.handler) ∈ routes := fun h => by
    obtain ⟨segs, hsegs⟩ := mem_of_matchPath h
    exact mem_of_ofMethod hsegs
  rw [matchMethodAndPath, Option.or_eq_some_iff, Option.or_eq_some_iff] at h
  rcases h with h | ⟨-, h | ⟨-, h⟩⟩
  · exact hpath h
  · split_ifs at h
    exact hpath h
  · exact hpath h

theorem mem_of_findHandler {routes : List (Pattern × η)} {method path : String} {f : Found η}
    (h : findHandler routes method path = .handler f) : (f.pattern, f.handler) ∈ routes := by
  rw [findHandler] at h
  generalize (if method = "CONNECT" then path else cleanPath path) = p at h
  split_ifs at h
  all_goals
    rcases hmatch : matchMethodAndPath routes method (pathSegments p) with _ | f'
    · rw [hmatch] at h
      cases h
    · rw [hmatch] at h
      cases h
      exact mem_of_matchMethodAndPath hmatch

/-- The segment of a slash alone: no wildcard takes it, and no route of these has it in its pattern. -/
theorem matchPath_slash : ∀ {path : List String} {n : Node η}, "/" ∈ path →
    (∀ r ∈ n, r.2.1.multi = false ∧ Segment.lit "/" ∉ r.1) → ∀ ms, matchPath path n ms = none
  | seg :: rest, n, hmem, hn, ms => by
    have hleaf : leaf true n = none := by
      rw [leaf, Option.map_eq_none_iff, List.find?_eq_none]
      intro r hr
      simp [(hn r hr).1]
    have hchild : ∀ p, ∀ r ∈ child p n, r.2.1.multi = false ∧ Segment.lit "/" ∉ r.1 := by
      rintro p ⟨segs, r⟩ hr
      obtain ⟨seg', -, hmem'⟩ := mem_child hr
      exact ⟨(hn _ hmem').1, fun hlit => (hn _ hmem').2 (List.mem_cons_of_mem _ hlit)⟩
    rw [matchPath, hleaf, Option.map_none, Option.or_none, Option.or_eq_none_iff]
    by_cases hseg : seg = "/"
    · have hnone : child (isLit seg) n = [] := by
        rw [List.eq_nil_iff_forall_not_mem]
        rintro ⟨segs, r⟩ hr
        obtain ⟨seg', hlit, hmem'⟩ := mem_child hr
        cases seg' with
        | lit t =>
          have ht : t = "/" := (decide_eq_true_iff.mp hlit).trans hseg
          exact (hn _ hmem').2 (ht ▸ List.mem_cons_self)
        | wild name => cases hlit
      rw [hnone, matchPath_nil]
      exact ⟨rfl, if_neg (not_not_intro hseg)⟩
    · have hrest : "/" ∈ rest := (List.mem_cons.mp hmem).resolve_left (Ne.symm hseg)
      rw [if_pos hseg]
      exact ⟨matchPath_slash hrest (hchild _) ms, matchPath_slash hrest (hchild _) _⟩

/-- A path with such a segment leads nowhere. -/
theorem findHandler_slash {routes : List (Pattern × η)}
    (hroutes : ∀ r ∈ routes, r.1.multi = false ∧ Segment.lit "/" ∉ r.1.segments) {method path : String}
    (hclean : cleanPath path = path) (hslash : "/" ∈ pathSegments path) :
    findHandler routes method path = .notFound := by
  have hnone {p : List String} (hp : "/" ∈ p) (m : String) : matchPath p (ofMethod routes m) [] = none := by
    refine matchPath_slash hp ?_ []
    intro r hr
    obtain ⟨r', hr', rfl⟩ := List.mem_map.mp hr
    exact hroutes r' (List.mem_filter.mp hr').1
  have hmatch {p : List String} (hp : "/" ∈ p) : matchMethodAndPath routes method p = none := by
    simp only [matchMethodAndPath, hnone hp, Option.none_or, ite_self]
  have hother : otherMethod routes (pathSegments path) = false := by
    simp [otherMethod, hnone hslash, hnone (List.mem_append_left ["/"] hslash)]
  have hredirects : redirects routes method (pathSegments path) = false := by
    simp [redirects, hmatch (List.mem_append_left ["/"] hslash)]
  rw [findHandler, hclean, ite_self, hredirects, hmatch hslash, hother]
  simp

/-- A path that is clean leads where its segments do. -/
theorem findHandler_of_clean {routes : List (Pattern × η)} {method path : String}
    (hclean : cleanPath path = path) (hslash : redirects routes method (pathSegments path) = false) :
    findHandler routes method path =
      ((matchMethodAndPath routes method (pathSegments path)).map Dispatch.handler).getD
        (if otherMethod routes (pathSegments path) then .methodNotAllowed else .notFound) := by
  rw [findHandler, hclean, ite_self]
  simp only [hslash]
  simp

/-- A request is redirected, or the path is looked up as it stands. -/
theorem findHandler_redirect_or (routes : List (Pattern × η)) (method path : String) :
    findHandler routes method path = .redirect ∨
      redirects routes method (pathSegments path) = false ∧ findHandler routes method path =
        ((matchMethodAndPath routes method (pathSegments path)).map Dispatch.handler).getD
          (if otherMethod routes (pathSegments path) then .methodNotAllowed else .notFound) := by
  rw [findHandler]
  generalize (if method = "CONNECT" then path else cleanPath path) = looked
  by_cases hredirect : redirects routes method (pathSegments looked) = true ∨ looked ≠ path
  · exact .inl (if_pos hredirect)
  · rw [if_neg hredirect]
    rw [not_or, not_not, Bool.not_eq_true] at hredirect
    obtain ⟨hslash, rfl⟩ := hredirect
    exact .inr ⟨hslash, rfl⟩

/-- One that is not is redirected. -/
theorem findHandler_of_unclean {routes : List (Pattern × η)} {method path : String}
    (hmethod : method ≠ "CONNECT") (hclean : cleanPath path ≠ path) :
    findHandler routes method path = .redirect := by
  simp only [findHandler, hmethod, if_false]
  exact if_pos (.inr hclean)

/-! ### The same routes with other handlers -/

section Map

variable {θ : Type} (g : η → θ)

/-- The same route to another handler. -/
def mapRoute (r : Pattern × η) : Pattern × θ := (r.1, g r.2)

def Found.map (f : Found η) : Found θ := ⟨f.pattern, g f.handler, f.values, f.exact⟩

def Dispatch.map : Dispatch η → Dispatch θ
  | .handler f => .handler (f.map g)
  | .redirect => .redirect
  | .methodNotAllowed => .methodNotAllowed
  | .notFound => .notFound

theorem child_map (p : Segment → Bool) (n : Node η) :
    child p (n.map fun r => (r.1, mapRoute g r.2)) = (child p n).map fun r => (r.1, mapRoute g r.2) := by
  rw [child, child, List.filterMap_map, List.map_filterMap]
  refine List.filterMap_congr fun r _ => ?_
  rcases r with ⟨_ | ⟨seg, rest⟩, r⟩
  · rfl
  · simp only [Function.comp_apply]
    split_ifs <;> rfl

theorem leaf_map (multi : Bool) (n : Node η) :
    leaf multi (n.map fun r => (r.1, mapRoute g r.2)) = (leaf multi n).map (mapRoute g) := by
  rw [leaf, leaf, List.find?_map, Option.map_map, Option.map_map]
  rfl

theorem matchPath_map (path : List String) (n : Node η) (ms : List String) :
    matchPath path (n.map fun r => (r.1, mapRoute g r.2)) ms = (matchPath path n ms).map (Found.map g) := by
  induction path generalizing n ms with
  | nil =>
    rw [matchPath, matchPath, leaf_map, Option.map_map, Option.map_map]
    rfl
  | cons seg rest ih =>
    rw [matchPath, matchPath, child_map, child_map, ih, ih, leaf_map, Option.map_or, Option.map_or,
      Option.map_map, Option.map_map]
    congr 2
    split_ifs <;> rfl

theorem ofMethod_map (routes : List (Pattern × η)) (method : String) :
    ofMethod (routes.map (mapRoute g)) method =
      (ofMethod routes method).map fun r => (r.1, mapRoute g r.2) := by
  rw [ofMethod, ofMethod, List.filter_map, List.map_map, List.map_map]
  rfl

theorem matchMethodAndPath_map (routes : List (Pattern × η)) (method : String) (path : List String) :
    matchMethodAndPath (routes.map (mapRoute g)) method path =
      (matchMethodAndPath routes method path).map (Found.map g) := by
  simp only [matchMethodAndPath, ofMethod_map, matchPath_map, Option.map_or]
  congr 2
  split_ifs <;> rfl

/-- A request goes the same way. -/
theorem findHandler_map (routes : List (Pattern × η)) (method path : String) :
    findHandler (routes.map (mapRoute g)) method path = (findHandler routes method path).map g := by
  have hexact : ∀ o : Option (Found η), (o.map (Found.map g)).map Found.exact = o.map Found.exact :=
    fun o => by rw [Option.map_map]; rfl
  have hredirects : ∀ p, redirects (routes.map (mapRoute g)) method p = redirects routes method p :=
    fun p => by rw [redirects, redirects, matchMethodAndPath_map, matchMethodAndPath_map, hexact, hexact]
  have hfound : ∀ p m, (matchPath p (ofMethod (routes.map (mapRoute g)) m) []).isSome =
      (matchPath p (ofMethod routes m) []).isSome := fun p m => by
    rw [ofMethod_map, matchPath_map, Option.isSome_map]
  have hother : ∀ p, otherMethod (routes.map (mapRoute g)) p = otherMethod routes p := fun p => by
    simp only [otherMethod, hfound, List.any_map]
    rfl
  simp only [findHandler, hredirects, hother, matchMethodAndPath_map]
  generalize (if method = "CONNECT" then path else cleanPath path) = looked
  split_ifs
  · rfl
  · rcases matchMethodAndPath routes method (pathSegments looked) with _ | f <;> rfl
  · rcases matchMethodAndPath routes method (pathSegments looked) with _ | f <;> rfl

end Map

end ServeMux

/-! ### Paths made of segments -/

section Slashed

/-- A slash before each part. -/
def slashed (parts : List (List Char)) : String := String.ofList (parts.flatMap ('/' :: ·))

/-- A part that stays where it is. -/
def Proper (part : List Char) : Prop := '/' ∉ part ∧ part ≠ [] ∧ part ≠ ['.'] ∧ part ≠ ['.', '.']

variable {parts : List (List Char)}

theorem splitOn_slashed (h : ∀ p ∈ parts, '/' ∉ p) : (slashed parts).toList.splitOn '/' = [] :: parts := by
  rw [slashed, String.toList_ofList]
  exact splitOn_flatMap_slash h List.not_mem_nil

theorem pathSegments_slashed (h : ∀ p ∈ parts, '/' ∉ p) :
    pathSegments (slashed parts) = segmentsOf parts := by
  rw [pathSegments, splitOn_slashed h, List.tail_cons]

theorem cleanStep_of_proper {out : List (List Char)} {part : List Char} (h : Proper part) :
    cleanStep out part = out ++ [part] := by
  obtain ⟨-, hempty, hdot, hdots⟩ := h
  simp [cleanStep, dotStep, hempty, hdot, hdots]

theorem foldl_cleanStep_of_proper (h : ∀ p ∈ parts, Proper p) (out : List (List Char)) :
    parts.foldl cleanStep out = out ++ parts := by
  induction parts generalizing out with
  | nil => simp
  | cons p parts ih =>
    rw [List.forall_mem_cons] at h
    rw [List.foldl_cons, cleanStep_of_proper h.1, ih h.2, List.append_assoc, List.singleton_append]

/-- What is left of a path has proper parts only. -/
theorem foldl_cleanStep_proper (h : ∀ p ∈ parts, '/' ∉ p) {out : List (List Char)}
    (hout : ∀ p ∈ out, Proper p) : ∀ p ∈ parts.foldl cleanStep out, Proper p := by
  induction parts generalizing out with
  | nil => exact hout
  | cons p parts ih =>
    rw [List.forall_mem_cons] at h
    refine ih h.2 ?_
    rw [cleanStep, dotStep]
    split_ifs with hempty hdot hdots
    · exact hout
    · exact hout
    · exact fun q hq => hout q (List.dropLast_subset _ hq)
    · intro q hq
      rcases List.mem_append.mp hq with hq | hq
      · exact hout q hq
      · rw [List.mem_singleton.mp hq]
        exact ⟨h.1, hempty, hdot, hdots⟩

theorem slash_intercalate {part : List Char} : '/' :: ['/'].intercalate (part :: parts) =
    (part :: parts).flatMap ('/' :: ·) := by
  induction parts generalizing part with
  | nil => simp
  | cons p parts ih =>
    rw [List.intercalate_cons_cons, List.flatMap_cons, ← ih]
    simp

/-- The parts that a path is cleaned to. -/
theorem cleanPath_eq (h : ∀ p ∈ parts, '/' ∉ p) (hne : parts ≠ []) :
    cleanPath (slashed parts) = String.ofList
      (if (parts.flatMap ('/' :: ·)).getLast? = some '/' ∧ parts.foldl cleanStep [] ≠ [] then
        '/' :: ['/'].intercalate (parts.foldl cleanStep []) ++ ['/']
      else '/' :: ['/'].intercalate (parts.foldl cleanStep [])) := by
  obtain ⟨p, rest, rfl⟩ := List.exists_cons_of_ne_nil hne
  have hsplit := splitOn_slashed h
  have hhead : (slashed (p :: rest)).toList.head? = some '/' := by simp [slashed]
  have hskip : ([] :: p :: rest).foldl cleanStep [] = (p :: rest).foldl cleanStep [] := rfl
  rw [cleanPath, if_pos hhead, hsplit, hskip, slashed, String.toList_ofList]

theorem getLast_slashed (h : ∀ p ∈ parts, Proper p) : (parts.flatMap ('/' :: ·)).getLast? ≠ some '/' := by
  rcases parts.eq_nil_or_concat' with rfl | ⟨init, last, rfl⟩
  · simp
  · obtain ⟨hslash, hempty, -, -⟩ := h last (by simp)
    intro hlast
    rw [List.flatMap_append, List.flatMap_singleton,
      List.getLast?_append_of_ne_nil _ (List.cons_ne_nil _ _), List.getLast?_cons] at hlast
    obtain ⟨c, hc⟩ := Option.ne_none_iff_exists'.mp (mt List.getLast?_eq_none_iff.mp hempty)
    rw [hc, Option.getD_some, Option.some.injEq] at hlast
    exact hslash (hlast ▸ List.mem_of_getLast? hc)

theorem cleanPath_slashed (h : ∀ p ∈ parts, Proper p) (hne : parts ≠ []) :
    cleanPath (slashed parts) = slashed parts := by
  obtain ⟨p, rest, rfl⟩ := List.exists_cons_of_ne_nil hne
  rw [cleanPath_eq (fun q hq => (h q hq).1) hne, foldl_cleanStep_of_proper h, List.nil_append,
    if_neg fun hlast => getLast_slashed h hlast.1, slash_intercalate, slashed]

/-- A dot segment is cleaned away. -/
theorem cleanPath_ne_of_dot (h : ∀ p ∈ parts, '/' ∉ p) {dot : List Char} (hmem : dot ∈ parts)
    (hdot : dot = ['.'] ∨ dot = ['.', '.']) : cleanPath (slashed parts) ≠ slashed parts := by
  have hproper := @foldl_cleanStep_proper _ h [] (by simp)
  have hnot : ¬Proper dot := by
    rintro ⟨-, -, h1, h2⟩
    exact hdot.elim h1 h2
  have hne : dot ≠ [] := by rcases hdot with rfl | rfl <;> simp
  intro heq
  have hsplit := splitOn_slashed h
  rw [← heq, cleanPath_eq h (List.ne_nil_of_mem hmem), String.toList_ofList] at hsplit
  generalize parts.foldl cleanStep [] = segments at hsplit hproper
  have hplain : ∀ q ∈ segments ++ [[]], '/' ∉ q := by
    intro q hq
    rcases List.mem_append.mp hq with hq | hq
    · exact (hproper q hq).1
    · rw [List.mem_singleton.mp hq]
      exact List.not_mem_nil
  have hclosed : ∀ segs : List (List Char), (∀ q ∈ segs, '/' ∉ q) →
      (segs.flatMap ('/' :: ·)).splitOn '/' = [] :: parts → segs = parts := fun segs hsegs hs => by
    rw [← List.nil_append (segs.flatMap _), splitOn_flatMap_slash hsegs List.not_mem_nil] at hs
    exact List.tail_eq_of_cons_eq hs
  have hcases : ∀ segs : List (List Char), segs = segments ∨ segs = segments ++ [[]] →
      segs ≠ parts := by
    rintro segs hsegs rfl
    rcases hsegs with rfl | rfl
    · exact hnot (hproper dot hmem)
    · rcases List.mem_append.mp hmem with hmem | hmem
      · exact hnot (hproper dot hmem)
      · exact hne (List.mem_singleton.mp hmem)
  rcases segments with _ | ⟨seg, rest⟩
  · refine hcases [[]] (.inr rfl) (hclosed _ hplain ?_)
    simpa using hsplit
  · split_ifs at hsplit
    · refine hcases _ (.inr rfl) (hclosed _ hplain ?_)
      rw [List.flatMap_append, ← slash_intercalate]
      simpa using hsplit
    · refine hcases _ (.inl rfl) (hclosed _ (fun q hq => (hproper q hq).1) ?_)
      rw [← slash_intercalate]
      exact hsplit

theorem unescape_of_plain {s : List Char} (h : '%' ∉ s) :
    unescape false s = some (utf8 (String.ofList s)) := by
  rw [utf8_eq_flatMap, String.toList_ofList]
  induction s with
  | nil => rw [unescape, List.flatMap_nil]
  | cons c s ih =>
    rw [List.mem_cons, not_or] at h
    rw [unescape.eq_def]
    simp [Ne.symm h.1, ih h.2]

theorem unescapeSegment_of_plain {s : List Char} (h : '%' ∉ s) :
    unescapeSegment s = String.ofList s := by
  rw [unescapeSegment, unescape_of_plain h, Option.bind_some, fromUTF8_utf8, Option.getD_some]

/-- An escaped segment is unescaped to itself. -/
theorem unescapeSegment_escape {keep : Char → Bool} (hpercent : keep '%' = false) (s : String) :
    unescapeSegment ((utf8 s).flatMap (escapeByte keep)) = s := by
  rw [unescapeSegment, unescape_flatMap (unescape_escapeByte hpercent fun h => by cases h),
    Option.bind_some, fromUTF8_utf8, Option.getD_some]

end Slashed

end GoStd
