import VaultsSyncer.Api.Requests
import VaultsSyncer.GoStd.ServeMux

/-! The routes that `run` sets up (`main.go`): a mux for what any user may do, one for what an admin may
    do, each behind its middleware, and the main mux in front of them.

        request ──▶ main mux ──▶ setup, login
                       ├──/api/config/, /api/users──▶ requireAuth ──▶ requireAdmin ──▶ admin mux
                       ├──/api/──▶ requireAuth ──▶ authed mux
                       └──/──▶ the files of the UI -/

namespace VaultsSyncer

open GoStd GoStd.ServeMux Schemes Schemes.Prog

/-- A route for one method: the segments of its path. -/
def route (method : String) (segments : List Segment) (h : HttpHandler) : Pattern × HttpHandler :=
  ({ method, segments }, h)

/-- A route for any method. -/
def mount (segments : List Segment) (multi : Bool) (h : HttpHandler) : Pattern × HttpHandler :=
  ({ segments, multi }, h)

/-- `mux.ServeHTTP`; `code` is the status of a redirect. -/
def serveMux (code : ℕ) (routes : List (Pattern × HttpHandler)) : HttpHandler := fun r =>
  match findHandler routes r.method r.path with
  | .handler f => f.handler { r with pathValue := f.pathValue }
  | .redirect => return ⟨code, .null⟩
  | .methodNotAllowed => return httpError "Method Not Allowed" 405
  | .notFound => return httpError "404 page not found" 404

/-- `requireAuth(next)`: the user goes into the context. -/
def requireAuthHandler (next : HttpHandler) : HttpHandler := fun r =>
  authed r.headers fun user => next { r with user := some user }

/-- `requireAuth(requireAdmin(next))`. -/
def requireAdminHandler (next : HttpHandler) : HttpHandler := fun r =>
  adminOnly r.headers fun user => next { r with user := some user }

variable (d : ApiDeps)

/-- `authedAPIMux` -/
def authedRoutes : List (Pattern × HttpHandler) :=
  [route "POST" [.lit "api", .lit "auth", .lit "logout"] fun r => AuthHandler.logout r.headers,
    route "GET" [.lit "api", .lit "auth", .lit "me"] fun r => AuthHandler.me r.user,
    route "GET" [.lit "api", .lit "health"] (ApiHandler.health d),
    route "GET" [.lit "api", .lit "vaults"] (ApiHandler.listVaults d),
    route "GET" [.lit "api", .lit "syncs"] (ApiHandler.listSyncs d),
    route "GET" [.lit "api", .lit "syncs", .wild "sync_id", .lit "status"]
      (ApiHandler.getSyncStatus d),
    route "GET" [.lit "api", .lit "syncs", .wild "sync_id", .lit "runs"] (ApiHandler.getSyncRuns d),
    route "POST" [.lit "api", .lit "syncs", .wild "sync_id", .lit "execute"] ApiHandler.executeSync,
    route "GET" [.lit "api", .lit "metrics"] (ApiHandler.getMetrics d)]

/-- `adminMux` -/
def adminRoutes : List (Pattern × HttpHandler) :=
  [route "GET" [.lit "api", .lit "config", .lit "vaults"] fun _ =>
      ConfigHandler.listVaultsConfig d.store,
    route "POST" [.lit "api", .lit "config", .lit "vaults", .lit "test"] fun r =>
      ConfigHandler.testVaultConnection d.testConnection r.body.vault,
    route "POST" [.lit "api", .lit "config", .lit "vaults"] fun r =>
      ConfigHandler.createVault d.store r.body.vault,
    route "GET" [.lit "api", .lit "config", .lit "vaults", .wild "vault_id"] fun r =>
      ConfigHandler.getVaultConfig d.store (r.pathValue "vault_id"),
    route "PUT" [.lit "api", .lit "config", .lit "vaults", .wild "vault_id"] fun r =>
      ConfigHandler.updateVault d.store (r.pathValue "vault_id") r.body.vault,
    route "DELETE" [.lit "api", .lit "config", .lit "vaults", .wild "vault_id"] fun r =>
      ConfigHandler.deleteVaultConfig (r.pathValue "vault_id"),
    route "GET" [.lit "api", .lit "config", .lit "syncs"] fun _ =>
      ConfigHandler.listSyncsConfig d.store,
    route "POST" [.lit "api", .lit "config", .lit "syncs"] fun r =>
      ConfigHandler.createSync d.store r.body.sync,
    route "GET" [.lit "api", .lit "config", .lit "syncs", .wild "sync_id"] fun r =>
      ConfigHandler.getSyncConfig d.store (r.pathValue "sync_id"),
    route "PUT" [.lit "api", .lit "config", .lit "syncs", .wild "sync_id"] fun r =>
      ConfigHandler.updateSync d.store (r.pathValue "sync_id") r.body.sync,
    route "DELETE" [.lit "api", .lit "config", .lit "syncs", .wild "sync_id"] fun r =>
      ConfigHandler.deleteSyncConfig (r.pathValue "sync_id"),
    route "GET" [.lit "api", .lit "users"] fun _ => UsersHandler.listUsers,
    route "POST" [.lit "api", .lit "users"] fun r => UsersHandler.createUser d.bc r.body.createUser,
    route "PUT" [.lit "api", .lit "users", .wild "user_id"] fun r =>
      UsersHandler.updateUser d.bc (r.pathValue "user_id") r.body.updateUser,
    route "DELETE" [.lit "api", .lit "users", .wild "user_id"] fun r =>
      UsersHandler.deleteUserAccount r.user (r.pathValue "user_id")]

/-- `mux` -/
def mainRoutes : List (Pattern × HttpHandler) :=
  [route "GET" [.lit "api", .lit "setup"] fun _ => SetupHandler.getSetupStatus,
    route "POST" [.lit "api", .lit "setup"] fun r => SetupHandler.completeSetup d.bc r.body.setup,
    route "POST" [.lit "api", .lit "auth", .lit "login"] fun r => AuthHandler.login d.bc r.body.login,
    mount [.lit "api", .lit "config"] true (requireAdminHandler (serveMux d.redirectCode (adminRoutes d))),
    mount [.lit "api", .lit "users"] false (requireAdminHandler (serveMux d.redirectCode (adminRoutes d))),
    mount [.lit "api", .lit "users"] true (requireAdminHandler (serveMux d.redirectCode (adminRoutes d))),
    mount [.lit "api"] true (requireAuthHandler (serveMux d.redirectCode (authedRoutes d))),
    mount [] true fun r => return d.serveUI r.path]

/-- The server: what becomes of a request. -/
def serveHTTP : HttpHandler := serveMux d.redirectCode (mainRoutes d)

/-- A clean path with a match is served by the handler matched. -/
theorem serveMux_of_found {code : ℕ} {routes : List (Pattern × HttpHandler)} {r : HttpRequest}
    {f : Found HttpHandler} (hclean : cleanPath r.path = r.path)
    (hslash : redirects routes r.method (pathSegments r.path) = false)
    (hfound : matchMethodAndPath routes r.method (pathSegments r.path) = some f) :
    serveMux code routes r = f.handler { r with pathValue := f.pathValue } := by
  rw [serveMux, findHandler_of_clean hclean hslash, hfound]
  rfl

/-! ### What stands in front of the API -/

/-- The paths of the API that take no session. -/
def Public (method : String) (path : List String) : Prop :=
  path = ["api", "setup"] ∧ method ∈ ["GET", "HEAD", "POST"] ∨
    path = ["api", "auth", "login"] ∧ method = "POST"

section Api

variable {method seg : String} {rest : List String}

theorem matchPath_get_eq_none (h : ¬(seg = "setup" ∧ rest = [])) :
    matchPath ("api" :: seg :: rest) (ofMethod (mainRoutes d) "GET") [] = none := by
  by_cases hseg : seg = "setup"
  · obtain ⟨x, rest, rfl⟩ := List.exists_cons_of_ne_nil fun hrest => h ⟨hseg, hrest⟩
    simp [ofMethod, mainRoutes, route, mount, matchPath, child, isLit, isWild, leaf, hseg]
  · simp [ofMethod, mainRoutes, route, mount, matchPath, child, isLit, isWild, leaf, Ne.symm hseg]

theorem matchPath_post_eq_none (hsetup : ¬(seg = "setup" ∧ rest = []))
    (hlogin : ¬(seg = "auth" ∧ rest = ["login"])) :
    matchPath ("api" :: seg :: rest) (ofMethod (mainRoutes d) "POST") [] = none := by
  by_cases hseg : seg = "setup"
  · obtain ⟨x, rest, rfl⟩ := List.exists_cons_of_ne_nil fun hrest => hsetup ⟨hseg, hrest⟩
    simp [ofMethod, mainRoutes, route, mount, matchPath, child, isLit, isWild, leaf, hseg]
  by_cases hauth : seg = "auth"
  · rcases rest with _ | ⟨x, rest⟩
    · simp [ofMethod, mainRoutes, route, mount, matchPath, child, isLit, isWild, leaf, hauth]
    by_cases hx : x = "login"
    · rcases rest with _ | ⟨y, rest⟩
      · exact absurd ⟨hauth, by rw [hx]⟩ hlogin
      simp [ofMethod, mainRoutes, route, mount, matchPath, child, isLit, isWild, leaf, hauth, hx]
    · simp [ofMethod, mainRoutes, route, mount, matchPath, child, isLit, isWild, leaf, hauth, Ne.symm hx]
  · simp [ofMethod, mainRoutes, route, mount, matchPath, child, isLit, isWild, leaf, Ne.symm hseg,
      Ne.symm hauth]

theorem matchPath_other_eq_none (h : method ≠ "") (hget : method ≠ "GET") (hpost : method ≠ "POST")
    (path : List String) : matchPath path (ofMethod (mainRoutes d) method) [] = none := by
  simp [ofMethod, mainRoutes, route, mount, Ne.symm h, Ne.symm hget, Ne.symm hpost]

/-- What is not public is found among the mounts. -/
theorem main_of_not_public (h : ¬Public method ("api" :: seg :: rest)) :
    matchMethodAndPath (mainRoutes d) method ("api" :: seg :: rest) =
      matchPath ("api" :: seg :: rest) (ofMethod (mainRoutes d) "") [] := by
  have hnone : method ≠ "" →
      matchPath ("api" :: seg :: rest) (ofMethod (mainRoutes d) method) [] = none := by
    intro hmethod
    by_cases hget : method = "GET"
    · rw [hget]
      exact matchPath_get_eq_none d fun hsetup => h (.inl ⟨by rw [hsetup.1, hsetup.2], by simp [hget]⟩)
    by_cases hpost : method = "POST"
    · rw [hpost]
      refine matchPath_post_eq_none d (fun hsetup => h (.inl ⟨?_, by simp [hpost]⟩))
        fun hlogin => h (.inr ⟨?_, hpost⟩)
      · rw [hsetup.1, hsetup.2]
      · rw [hlogin.1, hlogin.2]
    · exact matchPath_other_eq_none d hmethod hget hpost _
  rw [matchMethodAndPath]
  by_cases hmethod : method = ""
  · have hhead : method ≠ "HEAD" := by rw [hmethod]; decide
    rw [if_neg hhead, hmethod, Option.none_or, Option.or_self]
  rw [hnone hmethod, Option.none_or]
  by_cases hhead : method = "HEAD"
  · rw [if_pos hhead, matchPath_get_eq_none d fun hsetup =>
      h (.inl ⟨by rw [hsetup.1, hsetup.2], by simp [hhead]⟩), Option.none_or]
  · rw [if_neg hhead, Option.none_or]

variable (rest) in
theorem mount_of_config (x : String) :
    ∃ f, matchPath ("api" :: "config" :: x :: rest) (ofMethod (mainRoutes d) "") [] = some f ∧
      f.handler = requireAdminHandler (serveMux d.redirectCode (adminRoutes d)) := by
  simp [ofMethod, mainRoutes, route, mount, matchPath, child, isLit, isWild, leaf]

variable (rest) in
theorem mount_of_users :
    ∃ f, matchPath ("api" :: "users" :: rest) (ofMethod (mainRoutes d) "") [] = some f ∧
      f.handler = requireAdminHandler (serveMux d.redirectCode (adminRoutes d)) := by
  rcases rest with _ | ⟨x, rest⟩ <;>
    simp [ofMethod, mainRoutes, route, mount, matchPath, child, isLit, isWild, leaf]

variable (rest) in
theorem mount_of_other (hconfig : seg ≠ "config") (husers : seg ≠ "users") :
    ∃ f, matchPath ("api" :: seg :: rest) (ofMethod (mainRoutes d) "") [] = some f ∧
      f.handler = requireAuthHandler (serveMux d.redirectCode (authedRoutes d)) := by
  simp [ofMethod, mainRoutes, route, mount, matchPath, child, isLit, isWild, leaf, Ne.symm hconfig,
    Ne.symm husers]

/-- Without its slash the mount for the configuration is only redirected to. -/
theorem redirects_config (h : ¬Public method ["api", "config", "/"])
    (h' : ¬Public method ["api", "config"]) :
    redirects (mainRoutes d) method ["api", "config"] = true := by
  rw [redirects, main_of_not_public d h', List.cons_append, List.cons_append, List.nil_append,
    main_of_not_public d h]
  simp [ofMethod, mainRoutes, route, mount, matchPath, child, isLit, isWild, leaf]

end Api

/-- Whatever the method and whatever is in the path: below `/api/`, what is not public is redirected or
    behind the session check, and below `/api/config` and `/api/users` it is behind the admin check. -/
theorem api_behind_session {r : HttpRequest} {seg : String} {rest : List String}
    (hpath : pathSegments r.path = "api" :: seg :: rest)
    (hpublic : ¬Public r.method ("api" :: seg :: rest)) :
    serveHTTP d r = .ret ⟨d.redirectCode, .null⟩ ∨
      ((seg = "config" ∨ seg = "users") ∧ ∃ v, serveHTTP d r =
        requireAdminHandler (serveMux d.redirectCode (adminRoutes d)) { r with pathValue := v }) ∨
      ((seg ≠ "config" ∧ seg ≠ "users") ∧ ∃ v, serveHTTP d r =
        requireAuthHandler (serveMux d.redirectCode (authedRoutes d)) { r with pathValue := v }) := by
  rcases findHandler_redirect_or (mainRoutes d) r.method r.path with hfind | ⟨hslash, hfind⟩
  · left
    rw [serveHTTP, serveMux, hfind]
    rfl
  rw [hpath, main_of_not_public d hpublic] at hfind
  rw [hpath] at hslash
  have hserved : ∀ {f : Found HttpHandler},
      matchPath ("api" :: seg :: rest) (ofMethod (mainRoutes d) "") [] = some f →
        serveHTTP d r = f.handler { r with pathValue := f.pathValue } := by
    intro f hf
    rw [serveHTTP, serveMux, hfind, hf]
    rfl
  by_cases hconfig : seg = "config"
  · subst hconfig
    rcases rest with _ | ⟨x, rest⟩
    · rw [redirects_config d (by simp [Public]) (by simp [Public])] at hslash
      cases hslash
    · obtain ⟨f, hf, hhandler⟩ := mount_of_config d rest x
      exact .inr (.inl ⟨.inl rfl, f.pathValue, by rw [hserved hf, hhandler]⟩)
  by_cases husers : seg = "users"
  · subst husers
    obtain ⟨f, hf, hhandler⟩ := mount_of_users d rest
    exact .inr (.inl ⟨.inr rfl, f.pathValue, by rw [hserved hf, hhandler]⟩)
  · obtain ⟨f, hf, hhandler⟩ := mount_of_other d rest hconfig husers
    exact .inr (.inr ⟨⟨hconfig, husers⟩, f.pathValue, by rw [hserved hf, hhandler]⟩)

/-- A method that no route is for gets no further. -/
theorem api_behind_session_patch :
    serveHTTP {} { method := "PATCH", path := "/api/users/1" } = .ret ⟨307, .null⟩ ∨
      ∃ v, serveHTTP {} { method := "PATCH", path := "/api/users/1" } =
        requireAdminHandler (serveMux 307 (adminRoutes {}))
          { method := "PATCH", path := "/api/users/1", pathValue := v } := by
  have hslashed : "/api/users/1" = slashed ["api".toList, "users".toList, "1".toList] := by simp [slashed]
  have hsegments : pathSegments "/api/users/1" = ["api", "users", "1"] := by
    rw [hslashed, pathSegments_slashed (by simp)]
    simp [segmentsOf, unescapeSegment_of_plain]
  rcases api_behind_session {} (r := { method := "PATCH", path := "/api/users/1" }) hsegments
    (by simp [Public]) with h | ⟨-, h⟩ | ⟨⟨-, h⟩, -⟩
  · exact .inl h
  · exact .inr h
  · exact absurd rfl h

end VaultsSyncer
