import VaultsSyncer.Daemon.Routes

/-! Where the UI finds things (`api/web/index.html`, `main.go`). It writes an id into a path with
    `encodeURIComponent`, the muxes cut the path and unescape the segment, and the handler gets the id back,
    whatever characters are in it. What escaping leaves alone is a dot: an id that is a dot segment is
    cleaned out of the path; and a wildcard does not take a segment that is just a slash. No address leads
    to what has one of these ids (`items_addressed`).

        id  a/b    /api/config/vaults/a%2Fb    vault_id = a/b
        id  ..     /api/config/vaults/..       redirect to /api/config
        id  /      /api/config/vaults/%2F      404 page not found -/

namespace VaultsSyncer

open GoStd GoStd.ServeMux Schemes Schemes.Prog

/-- The characters that `encodeURIComponent` leaves alone. -/
def isURIComponentChar (c : Char) : Bool :=
  c.isAlphanum || c ∈ ['-', '_', '.', '!', '~', '*', '\x27', '(', ')']

/-- `encodeURIComponent` -/
def encodeURIComponent (s : String) : String :=
  String.ofList ((utf8 s).flatMap (escapeByte isURIComponentChar))

/-- The requests that name one vault or one sync in their path. -/
inductive ItemRequest where
  | getVault | updateVault | deleteVault | getSync | updateSync | deleteSync
  | syncStatus | syncRuns | executeSync

namespace ItemRequest

def method : ItemRequest → String
  | getVault | getSync | syncStatus | syncRuns => "GET"
  | updateVault | updateSync => "PUT"
  | deleteVault | deleteSync => "DELETE"
  | executeSync => "POST"

/-- The path as the UI writes it. -/
def path (id : String) : ItemRequest → String
  | getVault | updateVault | deleteVault => "/api/config/vaults/" ++ encodeURIComponent id
  | getSync | updateSync | deleteSync => "/api/config/syncs/" ++ encodeURIComponent id
  | syncStatus => "/api/syncs/" ++ encodeURIComponent id ++ "/status"
  | syncRuns => "/api/syncs/" ++ encodeURIComponent id ++ "/runs"
  | executeSync => "/api/syncs/" ++ encodeURIComponent id ++ "/execute"

/-- What it asks of the server: the handler for this id, behind its middleware. -/
def program (d : ApiDeps) (id : String) (r : HttpRequest) : ItemRequest → Db ApiReply
  | getVault => adminOnly r.headers fun _ => ConfigHandler.getVaultConfig d.store id
  | updateVault => adminOnly r.headers fun _ => ConfigHandler.updateVault d.store id r.body.vault
  | deleteVault => adminOnly r.headers fun _ => ConfigHandler.deleteVaultConfig id
  | getSync => adminOnly r.headers fun _ => ConfigHandler.getSyncConfig d.store id
  | updateSync => adminOnly r.headers fun _ => ConfigHandler.updateSync d.store id r.body.sync
  | deleteSync => adminOnly r.headers fun _ => ConfigHandler.deleteSyncConfig id
  | syncStatus => authed r.headers fun _ => ApiHandler.getSyncStatus d { r with pathValue := fun _ => id }
  | syncRuns => authed r.headers fun _ => ApiHandler.getSyncRuns d { r with pathValue := fun _ => id }
  | executeSync => authed r.headers fun _ => ApiHandler.executeSync { r with pathValue := fun _ => id }

/-- What the server says behind its middleware when no route is found. -/
def notFound (r : HttpRequest) : ItemRequest → Db ApiReply
  | syncStatus | syncRuns | executeSync =>
    authed r.headers fun _ => return httpError "404 page not found" 404
  | _ => adminOnly r.headers fun _ => return httpError "404 page not found" 404

/-- The segments of the path, with the id where it stands. -/
def segments (e : String) : ItemRequest → List String
  | getVault | updateVault | deleteVault => ["api", "config", "vaults", e]
  | getSync | updateSync | deleteSync => ["api", "config", "syncs", e]
  | syncStatus => ["api", "syncs", e, "status"]
  | syncRuns => ["api", "syncs", e, "runs"]
  | executeSync => ["api", "syncs", e, "execute"]

end ItemRequest

/-! ### From the path to its segments -/

section Path

variable (q : ItemRequest) (id : String)

theorem path_eq_slashed :
    q.path id = slashed ((q.segments (encodeURIComponent id)).map String.toList) := by
  have hlist : ∀ {t : String} {l : List String}, t.toList = (l.map String.toList).flatMap ('/' :: ·) →
      t = slashed (l.map String.toList) := fun h => by rw [slashed, ← h, String.ofList_toList]
  cases q with
  | getVault | updateVault | deleteVault =>
    exact hlist (t := "/api/config/vaults/" ++ encodeURIComponent id)
      (by simp [ItemRequest.segments])
  | getSync | updateSync | deleteSync =>
    exact hlist (t := "/api/config/syncs/" ++ encodeURIComponent id) (by simp [ItemRequest.segments])
  | syncStatus =>
    exact hlist (t := "/api/syncs/" ++ encodeURIComponent id ++ "/status")
      (by simp [ItemRequest.segments])
  | syncRuns =>
    exact hlist (t := "/api/syncs/" ++ encodeURIComponent id ++ "/runs")
      (by simp [ItemRequest.segments])
  | executeSync =>
    exact hlist (t := "/api/syncs/" ++ encodeURIComponent id ++ "/execute")
      (by simp [ItemRequest.segments])

theorem isURIComponentChar_or_percent {c : Char} (hc : c ∈ (encodeURIComponent id).toList) :
    isURIComponentChar c = true ∨ c = '%' := by
  rw [encodeURIComponent, String.toList_ofList] at hc
  exact mem_escape (fun c h => by rw [isURIComponentChar, h, Bool.true_or]) hc

theorem slash_notMem_encodeURIComponent : '/' ∉ (encodeURIComponent id).toList := by
  intro hmem
  rcases isURIComponentChar_or_percent id hmem with h | h
  · exact absurd h (by decide)
  · exact absurd h (by decide)

theorem unescapeSegment_encodeURIComponent :
    unescapeSegment (encodeURIComponent id).toList = id := by
  rw [encodeURIComponent, String.toList_ofList]
  exact unescapeSegment_escape (by decide) id

/-- A short text that is not escaped is an id of itself. -/
theorem encodeURIComponent_eq_dots {dots : String} (hdots : dots = "." ∨ dots = "..") :
    encodeURIComponent id = dots ↔ id = dots := by
  have hself : encodeURIComponent dots = dots := by
    rcases hdots with rfl | rfl <;> decide
  constructor
  · intro h
    have hid := unescapeSegment_encodeURIComponent id
    have hdot := unescapeSegment_encodeURIComponent dots
    rw [h] at hid
    rw [hself] at hdot
    exact hid.symm.trans hdot
  · rintro rfl
    exact hself

theorem encodeURIComponent_ne_empty (h : id ≠ "") : encodeURIComponent id ≠ "" := by
  intro hempty
  have hid := unescapeSegment_encodeURIComponent id
  rw [hempty] at hid
  exact h (hid.symm.trans (unescapeSegment_of_plain (by simp)))

theorem slash_notMem_segments :
    ∀ p ∈ (q.segments (encodeURIComponent id)).map String.toList, '/' ∉ p := by
  have hslash := slash_notMem_encodeURIComponent id
  cases q <;> simp [ItemRequest.segments, hslash]

variable {id} (hid : id ≠ "")

include hid

theorem pathSegments_path : pathSegments (q.path id) = q.segments id := by
  have hne : (encodeURIComponent id).toList ≠ [] := by
    simpa using encodeURIComponent_ne_empty id hid
  rw [path_eq_slashed, pathSegments_slashed (slash_notMem_segments q id)]
  cases q <;> simp [ItemRequest.segments, segmentsOf, unescapeSegment_of_plain,
    unescapeSegment_encodeURIComponent, hne]

/-- The path is clean unless the id is a dot segment. -/
theorem cleanPath_path_iff : cleanPath (q.path id) = q.path id ↔ id ≠ "." ∧ id ≠ ".." := by
  have hslash := slash_notMem_segments q id
  rw [path_eq_slashed, ne_eq, ne_eq, ← encodeURIComponent_eq_dots id (.inl rfl),
    ← encodeURIComponent_eq_dots id (.inr rfl)]
  constructor
  · intro hclean
    have hmem : (encodeURIComponent id).toList ∈
        (q.segments (encodeURIComponent id)).map String.toList := by
      cases q <;> simp [ItemRequest.segments]
    refine ⟨fun hdot => ?_, fun hdots => ?_⟩
    · exact cleanPath_ne_of_dot hslash hmem (.inl (by rw [hdot]; rfl)) hclean
    · exact cleanPath_ne_of_dot hslash hmem (.inr (by rw [hdots]; rfl)) hclean
  · rintro ⟨hdot, hdots⟩
    refine cleanPath_slashed (fun p hp => ⟨hslash p hp, ?_⟩) (by cases q <;> simp [ItemRequest.segments])
    obtain ⟨seg, hseg, rfl⟩ := List.mem_map.mp hp
    have hplain : seg ≠ "" ∧ seg ≠ "." ∧ seg ≠ ".." := by
      have hne := encodeURIComponent_ne_empty id hid
      cases q <;> simp only [ItemRequest.segments, List.mem_cons, List.not_mem_nil, or_false] at hseg <;>
        rcases hseg with rfl | rfl | rfl | rfl <;> first | decide | exact ⟨hne, hdot, hdots⟩
    obtain ⟨h0, h1, h2⟩ := hplain
    refine ⟨fun h => h0 (String.toList_inj.mp h), fun h => h1 (String.toList_inj.mp h),
      fun h => h2 (String.toList_inj.mp h)⟩

end Path

/-! ### From the segments to the handler -/

namespace ItemRequest

/-- The pattern under which the handler is registered, behind the mount. -/
def pattern : ItemRequest → Pattern
  | getVault => ⟨"GET", [.lit "api", .lit "config", .lit "vaults", .wild "vault_id"], false⟩
  | updateVault => ⟨"PUT", [.lit "api", .lit "config", .lit "vaults", .wild "vault_id"], false⟩
  | deleteVault => ⟨"DELETE", [.lit "api", .lit "config", .lit "vaults", .wild "vault_id"], false⟩
  | getSync => ⟨"GET", [.lit "api", .lit "config", .lit "syncs", .wild "sync_id"], false⟩
  | updateSync => ⟨"PUT", [.lit "api", .lit "config", .lit "syncs", .wild "sync_id"], false⟩
  | deleteSync => ⟨"DELETE", [.lit "api", .lit "config", .lit "syncs", .wild "sync_id"], false⟩
  | syncStatus => ⟨"GET", [.lit "api", .lit "syncs", .wild "sync_id", .lit "status"], false⟩
  | syncRuns => ⟨"GET", [.lit "api", .lit "syncs", .wild "sync_id", .lit "runs"], false⟩
  | executeSync => ⟨"POST", [.lit "api", .lit "syncs", .wild "sync_id", .lit "execute"], false⟩

def handler (d : ApiDeps) : ItemRequest → HttpHandler
  | getVault => fun r => ConfigHandler.getVaultConfig d.store (r.pathValue "vault_id")
  | updateVault => fun r => ConfigHandler.updateVault d.store (r.pathValue "vault_id") r.body.vault
  | deleteVault => fun r => ConfigHandler.deleteVaultConfig (r.pathValue "vault_id")
  | getSync => fun r => ConfigHandler.getSyncConfig d.store (r.pathValue "sync_id")
  | updateSync => fun r => ConfigHandler.updateSync d.store (r.pathValue "sync_id") r.body.sync
  | deleteSync => fun r => ConfigHandler.deleteSyncConfig (r.pathValue "sync_id")
  | syncStatus => ApiHandler.getSyncStatus d
  | syncRuns => ApiHandler.getSyncRuns d
  | executeSync => ApiHandler.executeSync

/-- Behind the mux for admins. -/
def OnConfig : ItemRequest → Prop
  | syncStatus | syncRuns | executeSync => False
  | _ => True

end ItemRequest

section Routes

variable (d : ApiDeps) (id : String) {q : ItemRequest}

theorem main_config (hq : q.OnConfig) : (∃ f, matchMethodAndPath (mainRoutes d) q.method (q.segments id) =
      some f ∧ f.handler = requireAdminHandler (serveMux d.redirectCode (adminRoutes d))) ∧
    redirects (mainRoutes d) q.method (q.segments id) = false := by
  cases q <;> first | exact hq.elim | simp [ItemRequest.method, ItemRequest.segments, redirects,
    matchMethodAndPath, ofMethod, mainRoutes, route, mount, matchPath, child, isLit, isWild, leaf]

theorem main_runtime (hq : ¬q.OnConfig) :
    (∃ f, matchMethodAndPath (mainRoutes d) q.method (q.segments id) = some f ∧
      f.handler = requireAuthHandler (serveMux d.redirectCode (authedRoutes d))) ∧
    redirects (mainRoutes d) q.method (q.segments id) = false := by
  cases q <;> first | exact (hq trivial).elim | simp [ItemRequest.method, ItemRequest.segments, redirects,
    matchMethodAndPath, ofMethod, mainRoutes, route, mount, matchPath, child, isLit, isWild, leaf]

variable {id} (hslash : id ≠ "/")

include hslash

theorem admin_item (hq : q.OnConfig) : matchMethodAndPath (adminRoutes d) q.method (q.segments id) =
      some ⟨q.pattern, q.handler d, [id], true⟩ ∧
    redirects (adminRoutes d) q.method (q.segments id) = false := by
  cases q <;> first | exact hq.elim | simp [ItemRequest.method, ItemRequest.segments, ItemRequest.pattern,
    ItemRequest.handler, redirects, matchMethodAndPath, ofMethod, adminRoutes, route, matchPath, child,
    isLit, isWild, leaf, hslash]

theorem authed_item (hq : ¬q.OnConfig) :
    matchMethodAndPath (authedRoutes d) q.method (q.segments id) =
      some ⟨q.pattern, q.handler d, [id], true⟩ ∧
    redirects (authedRoutes d) q.method (q.segments id) = false := by
  cases q <;> first | exact (hq trivial).elim | simp [ItemRequest.method, ItemRequest.segments,
    ItemRequest.pattern, ItemRequest.handler, redirects, matchMethodAndPath, ofMethod, authedRoutes, route,
    matchPath, child, isLit, isWild, leaf, hslash]

omit hslash in
/-- The handler gets the id from its wildcard, and is behind its middleware. -/
theorem program_eq (r : HttpRequest) :
    (q.OnConfig ∧ q.program d id r = adminOnly r.headers fun user => q.handler d
      { r with user := some user, pathValue := Found.pathValue ⟨q.pattern, q.handler d, [id], true⟩ }) ∨
    ¬q.OnConfig ∧ q.program d id r = authed r.headers fun user => q.handler d
      { r with user := some user, pathValue := Found.pathValue ⟨q.pattern, q.handler d, [id], true⟩ } := by
  cases q with
  | syncStatus | syncRuns | executeSync => exact .inr ⟨not_false, rfl⟩
  | _ => exact .inl ⟨trivial, rfl⟩

omit hslash in
/-- A clean path leads through the main mux, and its middleware, to the mux behind. -/
theorem serveHTTP_of_clean {r : HttpRequest} (hmethod : r.method = q.method) (hpath : r.path = q.path id)
    (hid : id ≠ "") (hclean : cleanPath (q.path id) = q.path id) : ∃ pathValue,
      (q.OnConfig → serveHTTP d r = adminOnly r.headers fun user =>
        serveMux d.redirectCode (adminRoutes d) { r with user := some user, pathValue := pathValue }) ∧
      (¬q.OnConfig → serveHTTP d r = authed r.headers fun user =>
        serveMux d.redirectCode (authedRoutes d) { r with user := some user, pathValue := pathValue }) := by
  have hserve : ∀ {f : Found HttpHandler}, redirects (mainRoutes d) q.method (q.segments id) = false →
      matchMethodAndPath (mainRoutes d) q.method (q.segments id) = some f →
      serveHTTP d r = f.handler { r with pathValue := f.pathValue } := by
    intro f hredirects hfound
    refine serveMux_of_found (by rw [hpath, hclean]) ?_ ?_ <;>
      rwa [hmethod, hpath, pathSegments_path q hid]
  by_cases hq : q.OnConfig
  · obtain ⟨⟨f, hfound, hhandler⟩, hredirects⟩ := main_config d id hq
    refine ⟨f.pathValue, fun _ => ?_, fun hnot => absurd hq hnot⟩
    rw [hserve hredirects hfound, hhandler]
    rfl
  · obtain ⟨⟨f, hfound, hhandler⟩, hredirects⟩ := main_runtime d id hq
    refine ⟨f.pathValue, fun honly => absurd honly hq, fun _ => ?_⟩
    rw [hserve hredirects hfound, hhandler]
    rfl

/-- The mux behind finds the handler. -/
theorem serveHTTP_item {r : HttpRequest} (hmethod : r.method = q.method) (hpath : r.path = q.path id)
    (hid : id ≠ "") (hclean : cleanPath (q.path id) = q.path id) : serveHTTP d r = q.program d id r := by
  have hserve : ∀ (r' : HttpRequest) {routes : List (Pattern × HttpHandler)} {f : Found HttpHandler},
      r'.method = q.method → r'.path = q.path id →
      redirects routes q.method (q.segments id) = false →
      matchMethodAndPath routes q.method (q.segments id) = some f →
      serveMux d.redirectCode routes r' = f.handler { r' with pathValue := f.pathValue } := by
    intro r' routes f hm hp hredirects hfound
    refine serveMux_of_found (by rw [hp, hclean]) ?_ ?_ <;> rwa [hm, hp, pathSegments_path q hid]
  obtain ⟨pathValue, honConfig, hruntime⟩ := serveHTTP_of_clean d hmethod hpath hid hclean
  rcases program_eq d r with ⟨hq, hprogram⟩ | ⟨hq, hprogram⟩
  · obtain ⟨hitem, hitem'⟩ := admin_item d hslash hq
    rw [hprogram, honConfig hq]
    exact congrArg (adminOnly r.headers) (funext fun user =>
      hserve { r with user := some user, pathValue := pathValue } hmethod hpath hitem' hitem)
  · obtain ⟨hitem, hitem'⟩ := authed_item d hslash hq
    rw [hprogram, hruntime hq]
    exact congrArg (authed r.headers) (funext fun user =>
      hserve { r with user := some user, pathValue := pathValue } hmethod hpath hitem' hitem)

omit hslash in
/-- For a slash the mux behind finds nothing. -/
theorem serveHTTP_slash {r : HttpRequest} (hmethod : r.method = q.method) (hpath : r.path = q.path "/")
    (hclean : cleanPath (q.path "/") = q.path "/") : serveHTTP d r = q.notFound r := by
  have hserve : ∀ (r' : HttpRequest) {routes : List (Pattern × HttpHandler)}, r'.path = q.path "/" →
      (∀ route ∈ routes, route.1.multi = false ∧ Segment.lit "/" ∉ route.1.segments) →
      serveMux d.redirectCode routes r' = return httpError "404 page not found" 404 := by
    intro r' routes hp hroutes
    have hslash : "/" ∈ pathSegments (q.path "/") := by
      rw [pathSegments_path q (by decide)]
      cases q <;> simp [ItemRequest.segments]
    rw [serveMux, hp, findHandler_slash hroutes hclean hslash]
  obtain ⟨pathValue, honConfig, hruntime⟩ := serveHTTP_of_clean d hmethod hpath (by decide) hclean
  by_cases hq : q.OnConfig
  · have hprogram : q.notFound r =
        adminOnly r.headers fun _ => return httpError "404 page not found" 404 := by
      cases q <;> first | exact hq.elim | rfl
    rw [hprogram, honConfig hq]
    exact congrArg (adminOnly r.headers) (funext fun user =>
      hserve { r with user := some user, pathValue := pathValue } hpath (by simp [adminRoutes, route]))
  · have hprogram : q.notFound r =
        authed r.headers fun _ => return httpError "404 page not found" 404 := by
      cases q <;> first | exact (hq trivial).elim | rfl
    rw [hprogram, hruntime hq]
    exact congrArg (authed r.headers) (funext fun user =>
      hserve { r with user := some user, pathValue := pathValue } hpath (by simp [authedRoutes, route]))

end Routes

theorem ItemRequest.method_ne_connect (q : ItemRequest) : q.method ≠ "CONNECT" := by
  cases q <;> decide

/-- The address that the UI writes leads a request to the handler with just that id, whatever characters
    are in it, unless the id is a dot segment: then every request is redirected away from it; or just a
    slash: then nothing is found behind the middleware. -/
theorem items_addressed (q : ItemRequest) {id : String} (hid : id ≠ "") (d : ApiDeps) {r : HttpRequest}
    (hmethod : r.method = q.method) (hpath : r.path = q.path id) :
    serveHTTP d r = if id = "." ∨ id = ".." then .ret ⟨d.redirectCode, .null⟩
      else if id = "/" then q.notFound r else q.program d id r := by
  split_ifs with hdots hslash
  · have hclean : cleanPath (q.path id) ≠ q.path id := by
      rw [ne_eq, cleanPath_path_iff q hid]
      tauto
    rw [serveHTTP, serveMux, hmethod, hpath, findHandler_of_unclean q.method_ne_connect hclean]
    rfl
  · have hclean := (cleanPath_path_iff q hid).mpr (by tauto)
    subst hslash
    exact serveHTTP_slash d hmethod hpath hclean
  · have hclean := (cleanPath_path_iff q hid).mpr (by tauto)
    exact serveHTTP_item d hslash hmethod hpath hid hclean

/-- An id with a slash in it gets through, and is taken for what it is. -/
theorem items_addressed_slash :
    serveHTTP {} { method := "PUT", path := ItemRequest.updateVault.path "a/b" } =
      adminOnly {} fun _ => ConfigHandler.updateVault {} "a/b" none :=
  @items_addressed .updateVault "a/b" (by decide) {} _ rfl rfl

end VaultsSyncer
