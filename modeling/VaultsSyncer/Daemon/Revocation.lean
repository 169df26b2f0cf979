import VaultsSyncer.Auth.Callers
import VaultsSyncer.Daemon.Authority

/-! What a token is worth. `requireAuth` looks the session up on every request, so a token that speaks for
    nobody opens nothing from then on: no request that comes later gets further than the middleware,
    whatever the requests still under way may do (`revoked_token_refused`). The same goes for a user who
    is no admin, on the routes that take one, as long as nobody asks for a promotion
    (`demoted_user_refused`).

        the others    ⋯ DELETE sessions ⋯           ⋯          ⋯
        request i                        │  SELECT session  │  401 -/

namespace VaultsSyncer

open GoStd GoStd.ServeMux Schemes Schemes.Prog

/-! ### What statements do to the sessions under a token, and to the admins -/

section Statements

variable {token : String} {id : ℤ} {st : Stmt}

/-- Only an insertion puts a session under a token. -/
theorem mem_sessions_exec (hst : ∀ userID e t, st ≠ .insertSession userID token e t) (db : Database) :
    ∀ sess ∈ (st.exec db).2.sessions.rows, sess.token = token → sess ∈ db.sessions.rows := by
  intro sess hsess htoken
  cases st with
  | insertSession userID token' e t =>
    simp only [Stmt.exec] at hsess
    split_ifs at hsess with hfree
    · rcases List.mem_append.mp hsess with hsess | hsess
      · exact hsess
      · rw [List.mem_singleton] at hsess
        subst hsess
        have hname : token' = token := htoken
        exact absurd (by rw [hname]) (hst userID e t)
    · exact hsess
    · exact hsess
  | deleteSession token' => exact List.mem_of_mem_filter hsess
  | deleteSessionsOf userID => exact List.mem_of_mem_filter hsess
  | deleteUser id => exact List.mem_of_mem_filter hsess
  | insertUser username hash role t =>
    simp only [Stmt.exec] at hsess
    split_ifs at hsess <;> exact hsess
  | insertSetting key value t =>
    simp only [Stmt.exec] at hsess
    split_ifs at hsess <;> exact hsess
  | insertConfig t id json now =>
    simp only [Stmt.exec] at hsess
    split_ifs at hsess <;> exact hsess
  | _ => exact hsess

/-- The id is taken, and not an admin's. -/
def Database.NotAdmin (id : ℤ) (db : Database) : Prop :=
  id < db.users.nextID ∧ ∀ u ∈ db.users.rows, u.id = id → u.role ≠ roleAdmin

/-- Only a promotion makes an admin of a user there is. -/
theorem notAdmin_exec (hst : ∀ t, st ≠ .updateUserRole id roleAdmin t) {db : Database}
    (h : db.NotAdmin id) : (st.exec db).2.NotAdmin id := by
  by_cases hkeeps : st.KeepsUsers = true
  · rwa [Database.NotAdmin, Stmt.exec_keepsUsers hkeeps]
  cases st with
  | insertUser username hash role t =>
    simp only [Stmt.exec]
    split_ifs with hfree
    · refine ⟨h.1.trans (Int.lt_succ _), fun u hu hid => ?_⟩
      rcases List.mem_append.mp hu with hu | hu
      · exact h.2 u hu hid
      · rw [List.mem_singleton] at hu
        subst hu
        exact absurd hid h.1.ne'
    · exact h
  | updateUserPassword id' hash t =>
    refine ⟨h.1, fun u hu hid => ?_⟩
    obtain ⟨v, hv, rfl⟩ := List.mem_map.mp hu
    split_ifs at hid ⊢ <;> exact h.2 v hv hid
  | updateUserRole id' role t =>
    refine ⟨h.1, fun u hu hid => ?_⟩
    obtain ⟨v, hv, rfl⟩ := List.mem_map.mp hu
    split_ifs at hid ⊢ with hv'
    · have hsame : id' = id := hv'.symm.trans hid
      intro hrole
      have hadmin : role = roleAdmin := hrole
      exact hst t (by rw [hsame, hadmin])
    · exact h.2 v hv hid
  | deleteUser id' => exact ⟨h.1, fun u hu hid => h.2 u (List.mem_of_mem_filter hu) hid⟩
  | _ => exact absurd rfl hkeeps

end Statements

/-! ### Who a token speaks for, from here on -/

/-- The random generator never gives this token. -/
def Surroundings.NeverDraws (token : String) (env : Surroundings) : Prop :=
  ∀ n bytes, env.random.get n = .ok bytes → hexString (takeBytes 32 bytes) ≠ token

theorem neverDraws_serve (token : String) (op : DbCall) (env : Surroundings) (db : Database)
    (h : env.NeverDraws token) : (serve op (env, db)).2.1.NeverDraws token := by
  cases op with
  | sql st => simp only [serve]; split <;> exact h
  | rowsAffected n => simp only [serve]; split <;> exact h
  | now => exact h
  | randRead n => exact fun n => h (n + 1)

theorem clock_serve (now : ℤ) (op : DbCall) (env : Surroundings) (db : Database)
    (h : ∀ n, now ≤ env.clock.get n) (n : ℕ) : now ≤ (serve op (env, db)).2.1.clock.get n := by
  cases op with
  | sql st => simp only [serve]; split <;> exact h n
  | rowsAffected m => simp only [serve]; split <;> exact h n
  | now => exact h (n + 1)
  | randRead m => exact h n

section Run

variable {ι : Type} [DecidableEq ι] {d : ι → ApiDeps} {r : ι → HttpRequest}
  {s₀ s₁ s₂ : Threads.State DbCall DbCall.Ans Surroundings Database ApiReply ι} {token : String}

/-- No request that is not done yet draws the token. -/
def Undrawn (s₀ s₁ : Threads.State DbCall DbCall.Ans Surroundings Database ApiReply ι) (token : String) :
    Prop := ∀ j, (∃ reply, s₁.prog j = .ret reply) ∨ (s₀.env j).NeverDraws token

variable (hstart : ∀ j, s₀.prog j = serveHTTP (d j) (r j)) (h₁ : Threads.Reaches serve s₀ s₁)
  (h₂ : Threads.Reaches serve s₁ s₂)

include hstart h₁ h₂

/-- No session comes back under a token, however the requests go on. -/
theorem sessions_of_token (hdraws : Undrawn s₀ s₁ token) {P : Session → Prop}
    (h : ∀ sess ∈ s₁.shared.sessions.rows, sess.token = token → P sess) :
    ∀ sess ∈ s₂.shared.sessions.rows, sess.token = token → P sess := by
  refine h₁.grounded_invariant h₂ (fun j => by rw [hstart j]; exact grounded_serveHTTP (d j) (r j))
    (I := fun db => ∀ sess ∈ db.sessions.rows, sess.token = token → P sess) h ?_
  intro j s seen op hgoing hseen hop hdb
  refine serve_preserves (I := fun db => ∀ sess ∈ db.sessions.rows, sess.token = token → P sess) hop
    ?_ _ hdb
  intro st db hst hdb sess hsess htoken
  refine hdb sess (mem_sessions_exec ?_ db sess hsess htoken) htoken
  rintro userID e t rfl
  rcases hst with hreads | hentitled
  · cases hreads
  cases hentitled with
  | admin _ _ _ hs => exact hs
  | closing _ _ _ hs => rcases hs with ⟨t, hs⟩ | ⟨t, hs⟩ <;> cases hs
  | @credentials _ _ m' _ bytes _ _ _ _ _ _ _ hm' hdrawn =>
    obtain ⟨t', ht, -, -, henv, -⟩ := hseen m' hm'
    have hnever : (t'.env j).NeverDraws (hexString (takeBytes 32 bytes)) := by
      refine ht.env_invariant (E := Surroundings.NeverDraws _) (neverDraws_serve _) ?_
      exact (hdraws j).resolve_left fun ⟨reply, hdone⟩ => hgoing reply hdone
    rw [henv] at hnever
    exact hnever 0 bytes hdrawn rfl

/-- Nobody is promoted whom no request that is not done yet asks to promote. -/
theorem notAdmin_of_unasked {id : ℤ} (hasks : ∀ j, (∃ reply, s₁.prog j = .ret reply) ∨
      ∀ req, (r j).body.updateUser = some req → req.role ≠ roleAdmin)
    (h : s₁.shared.NotAdmin id) : s₂.shared.NotAdmin id := by
  refine h₁.grounded_invariant h₂ (fun j => by rw [hstart j]; exact grounded_serveHTTP (d j) (r j))
    (I := Database.NotAdmin id) h ?_
  intro j s seen op hgoing hseen hop hdb
  refine serve_preserves (I := Database.NotAdmin id) hop ?_ _ hdb
  intro st db hst hdb
  refine notAdmin_exec ?_ hdb
  rintro t rfl
  rcases hst with hreads | hentitled
  · cases hreads
  cases hentitled with
  | admin _ _ _ hs =>
    obtain ⟨req, hreq, hrole⟩ := hs
    exact (hasks j).resolve_left (fun ⟨reply, hdone⟩ => hgoing reply hdone) req hreq hrole
  | closing _ _ _ hs => rcases hs with ⟨t, hs⟩ | ⟨t, hs⟩ <;> cases hs

omit h₂ in
/-- A token that speaks for nobody is vouched for by no later moment. -/
theorem not_vouched_of_nobody {i : ι} {now : ℤ} (hdraws : Undrawn s₀ s₁ token)
    (hclock : ∀ n, now ≤ (s₁.env i).clock.get n) (hnobody : s₁.shared.caller token now = none)
    {seen : Set DbMoment} (hseen : ∀ m ∈ seen, Threads.Between serve s₁ s₂ i m) (user : User) :
    ¬Vouched seen token user := by
  rintro ⟨htoken, m₀, hm₀, m₁, hm₁, m₂, hm₂, sess, hop, hlookup, hunexpired, huser⟩
  have hgone : ∀ sess ∈ s₁.shared.sessions.rows, sess.token = token → sess.expiresAt ≤ now := by
    intro sess hsess hname
    by_contra hlive
    have hsome := Database.caller_isSome.mpr
      ⟨htoken, sess, Table.Keyed.lookup_eq_some_iff.mpr ⟨hsess, hname⟩, not_le.mp hlive⟩
    rw [hnobody] at hsome
    obtain ⟨user, huser⟩ := hsome
    cases huser
  obtain ⟨t₁, ht₁, -, -, -, hstate⟩ := hseen m₁ hm₁
  obtain ⟨t₀, ht₀, -, -, henv, -⟩ := hseen m₀ hm₀
  have hexpired := sessions_of_token hstart h₁ ht₁ hdraws hgone
  rw [hstate] at hexpired
  obtain ⟨hmem, hname⟩ := Table.Keyed.lookup_eq_some_iff.mp hlookup
  have hlate := ht₀.env_invariant (E := fun env => ∀ n, now ≤ env.clock.get n) (clock_serve now) hclock
  rw [henv] at hlate
  have hhead : now ≤ m₀.env.clock.head := hlate 0
  have hend := hexpired sess hmem hname
  omega

/-- However requests interleave: once a token speaks for nobody, a later request with it gets no further
    than the middleware on every route that takes a session, and changes nothing. -/
theorem revoked_token_refused {i : ι} {now : ℤ} (hlater : s₁.prog i = serveHTTP (d i) (r i))
    (hdraws : Undrawn s₀ s₁ (extractToken (r i).headers))
    (hclock : ∀ n, now ≤ (s₁.env i).clock.get n)
    (hnobody : s₁.shared.caller (extractToken (r i).headers) now = none)
    (hroute : (r i).GoesTo (d i) authedMounts) :
    (∀ st k, s₂.prog i = .call (.sql st) k → st.Reads = true) ∧
      ∀ reply, s₂.prog i = .ret reply → reply = jsonError "unauthorized" 401 := by
  obtain ⟨seen, hseen, hgrounded⟩ := exists_seen hlater h₂
  have hnot := not_vouched_of_nobody hstart h₁ hdraws hclock hnobody hseen
  constructor
  · intro st k hp
    rw [hp] at hgrounded
    rcases hgrounded.1 with hreads | hentitled
    · exact hreads
    cases hentitled with
    | admin _ hcaller _ _ => exact absurd hcaller (hnot _)
    | ownSession _ _ hcaller => exact absurd hcaller (hnot _)
    | credentials hpublic => exact absurd hroute hpublic
    | firstAdmin hpublic => exact absurd hroute hpublic
    | closing hpublic => exact absurd hroute hpublic
  · intro reply hp
    rw [hp] at hgrounded
    rcases hgrounded hroute with hrefused | ⟨user, hcaller, -⟩
    · exact hrefused
    · exact absurd hcaller (hnot user)

omit h₂ in
/-- A token that speaks for no admin is vouched for as an admin's by no later moment. -/
theorem not_admin_of_caller {i : ι} {now : ℤ} (hdraws : Undrawn s₀ s₁ token)
    (hasks : ∀ j, (∃ reply, s₁.prog j = .ret reply) ∨
      ∀ req, (r j).body.updateUser = some req → req.role ≠ roleAdmin)
    (hclock : ∀ n, now ≤ (s₁.env i).clock.get n)
    (hnoAdmin : ∀ user, s₁.shared.caller token now = some user → user.role ≠ roleAdmin)
    {seen : Set DbMoment} (hseen : ∀ m ∈ seen, Threads.Between serve s₁ s₂ i m) {user : User}
    (hcaller : Vouched seen token user) : user.role ≠ roleAdmin := by
  rcases hnow : s₁.shared.caller token now with _ | owner
  · exact absurd hcaller (not_vouched_of_nobody hstart h₁ hdraws hclock hnow hseen user)
  obtain ⟨-, sess₁, hsess₁, -, howner⟩ := Database.caller_eq_some.mp hnow
  obtain ⟨hmem, hname⟩ := Table.Keyed.lookup_eq_some_iff.mp howner
  have hpowerless : s₁.shared.NotAdmin owner.id := by
    refine ⟨s₁.shared.users.ids_lt owner hmem, fun u hu hid => ?_⟩
    have hsame := Table.Keyed.lookup_eq_some_iff.mpr ⟨hu, hid.trans hname⟩
    rw [howner, Option.some.injEq] at hsame
    exact hsame ▸ hnoAdmin owner hnow
  have hone : ∀ sess ∈ s₁.shared.sessions.rows, sess.token = token → sess.userID = owner.id := by
    intro sess hsess htoken
    have hsame := Table.Keyed.lookup_eq_some_iff.mpr ⟨hsess, htoken⟩
    rw [hsess₁, Option.some.injEq] at hsame
    rw [← hsame, ← hname]
  obtain ⟨-, m₀, hm₀, m₁, hm₁, m₂, hm₂, sess, -, hlookup, -, huser⟩ := hcaller
  obtain ⟨t₁, ht₁, -, -, -, hstate₁⟩ := hseen m₁ hm₁
  obtain ⟨t₂, ht₂, -, -, -, hstate₂⟩ := hseen m₂ hm₂
  have hsession := sessions_of_token hstart h₁ ht₁ hdraws hone
  have hrole := notAdmin_of_unasked hstart h₁ ht₂ hasks hpowerless
  rw [hstate₁] at hsession
  rw [hstate₂] at hrole
  obtain ⟨hsess, htoken⟩ := Table.Keyed.lookup_eq_some_iff.mp hlookup
  obtain ⟨hu, hid⟩ := Table.Keyed.lookup_eq_some_iff.mp huser
  exact hrole.2 user hu (hid.trans (hsession sess hsess htoken))

/-- However requests interleave: a token that speaks for no admin opens no route for admins later on,
    and changes nothing, as long as no request that is not done yet asks for a promotion. -/
theorem demoted_user_refused {i : ι} {now : ℤ} (hlater : s₁.prog i = serveHTTP (d i) (r i))
    (hdraws : Undrawn s₀ s₁ (extractToken (r i).headers))
    (hasks : ∀ j, (∃ reply, s₁.prog j = .ret reply) ∨
      ∀ req, (r j).body.updateUser = some req → req.role ≠ roleAdmin)
    (hclock : ∀ n, now ≤ (s₁.env i).clock.get n)
    (hnoAdmin : ∀ user, s₁.shared.caller (extractToken (r i).headers) now = some user →
      user.role ≠ roleAdmin)
    (hroute : (r i).GoesTo (d i) adminMounts) :
    (∀ st k, s₂.prog i = .call (.sql st) k → st.Reads = true) ∧
      ∀ reply, s₂.prog i = .ret reply →
        reply = jsonError "unauthorized" 401 ∨ reply = jsonError "forbidden" 403 := by
  obtain ⟨seen, hseen, hgrounded⟩ := exists_seen hlater h₂
  have hnot : ∀ {user}, Vouched seen (extractToken (r i).headers) user → user.role ≠ roleAdmin :=
    not_admin_of_caller hstart h₁ hdraws hasks hclock hnoAdmin hseen
  have hbehind : (r i).GoesTo (d i) authedMounts := by
    obtain ⟨f, hfind, hmem⟩ := hroute
    exact ⟨f, hfind, List.mem_cons_of_mem _ hmem⟩
  constructor
  · intro st k hp
    rw [hp] at hgrounded
    rcases hgrounded.1 with hreads | hentitled
    · exact hreads
    cases hentitled with
    | admin _ hcaller hadmin _ => exact absurd hadmin (hnot hcaller)
    | ownSession _ hother _ => exact absurd hroute hother
    | credentials hpublic => exact absurd hbehind hpublic
    | firstAdmin hpublic => exact absurd hbehind hpublic
    | closing hpublic => exact absurd hbehind hpublic
  · intro reply hp
    rw [hp] at hgrounded
    rcases hgrounded hbehind with hrefused | ⟨user, hcaller, hadmin⟩
    · exact .inl hrefused
    · exact .inr ((hadmin hroute).resolve_right (hnot hcaller))

end Run

/-! ### A request with a token, on a store with one user -/

/-- What comes with the token `t`. -/
def tokenRequest (path : String) : HttpRequest where
  method := "GET"
  path := path
  headers := { sessionCookie := some "t" }

/-- A request alone, where nothing is left to draw. -/
def loneRequest (r : HttpRequest) (db : Database) :
    Threads.State DbCall DbCall.Ans Surroundings Database ApiReply Unit where
  prog _ := serveHTTP {} r
  env _ := { random := Stream'.const (.error (.new "EAGAIN")) }
  shared := db

theorem undrawn_loneRequest (r : HttpRequest) (db : Database) (token : String) :
    Undrawn (loneRequest r db) (loneRequest r db) token := fun _ => .inr fun _ _ h => by cases h

theorem goesTo_adminMounts_users : (tokenRequest "/api/users").GoesTo {} adminMounts := by
  have hslashed : "/api/users" = slashed ["api".toList, "users".toList] := by simp [slashed]
  have hplain : ∀ p ∈ ["api".toList, "users".toList], Proper p := by simp [Proper]
  have hsegments : pathSegments "/api/users" = ["api", "users"] := by
    rw [hslashed, pathSegments_slashed fun p hp => (hplain p hp).1]
    simp [segmentsOf, unescapeSegment_of_plain]
  let users := mount [.lit "api", .lit "users"] false (requireAdminHandler (serveMux 307 (adminRoutes {})))
  have hclean : cleanPath (tokenRequest "/api/users").path = (tokenRequest "/api/users").path := by
    rw [tokenRequest, hslashed, cleanPath_slashed hplain (by simp)]
  refine ⟨⟨users.1, users.2, [], true⟩, ?_, by simp [users, mount, adminMounts]⟩
  rw [findHandler_of_clean hclean]
  all_goals rw [tokenRequest, hsegments]; rfl

theorem extractToken_tokenRequest (path : String) : extractToken (tokenRequest path).headers = "t" := by
  have hprefix : hasPrefix "" "Bearer " = false := by decide
  rw [extractToken, if_neg]
  · rfl
  · exact Bool.eq_false_iff.mp hprefix

/-- Whom the token speaks for. -/
theorem caller_oneSession {role : String} {expiresAt now : ℤ} {user : User}
    (h : (oneSession role expiresAt).caller "t" now = some user) : now < expiresAt ∧ user.role = role := by
  obtain ⟨-, sess, hsess, hlive, huser⟩ := Database.caller_eq_some.mp h
  have hsessions : (oneSession role expiresAt).sessions.rows = [⟨1, 1, "t", expiresAt, 0⟩] := rfl
  have husers : (oneSession role expiresAt).users.rows = [⟨1, "u", "", role, 0, 0⟩] := rfl
  have hmem := Table.lookup_mem hsess
  have hmem' := Table.lookup_mem huser
  rw [hsessions, List.mem_singleton] at hmem
  rw [husers, List.mem_singleton] at hmem'
  rw [hmem] at hlive
  rw [hmem']
  exact ⟨hlive, rfl⟩

/-- The session has run out. -/
theorem revoked_token_refused_expired :
    ∃ s, Threads.Reaches serve (loneRequest (tokenRequest "/api/users") (oneSession roleAdmin 0)) s ∧
      s.prog () = .ret (jsonError "unauthorized" 401) := by
  have hrefused : ∀ r db, r.GoesTo {} authedMounts → db.caller (extractToken r.headers) 0 = none →
      ∃ s, Threads.Reaches serve (loneRequest r db) s ∧
        s.prog () = .ret (jsonError "unauthorized" 401) := by
    intro r db hroute hnobody
    obtain ⟨s, hs, hdone⟩ := Threads.exists_finished (h := serve) (loneRequest r db)
    obtain ⟨reply, hreply⟩ := hdone ()
    have hreplies := (revoked_token_refused (d := fun _ => {}) (r := fun _ => r) (i := ())
      (fun _ => rfl) .refl hs rfl (undrawn_loneRequest r db _) (fun _ => le_rfl) hnobody hroute).2
    exact ⟨s, hs, by rw [hreply, hreplies reply hreply]⟩
  obtain ⟨f, hfind, hmem⟩ := goesTo_adminMounts_users
  refine hrefused _ _ ⟨f, hfind, List.mem_cons_of_mem _ hmem⟩ ?_
  rw [extractToken_tokenRequest]
  by_contra hsome
  obtain ⟨user, huser⟩ := Option.ne_none_iff_exists'.mp hsome
  exact absurd (caller_oneSession huser).1 (lt_irrefl _)

/-- The session is good, and its user no admin. -/
theorem demoted_user_refused_good :
    ∃ s reply, Threads.Reaches serve
        (loneRequest (tokenRequest "/api/users") (oneSession roleUser 9)) s ∧
      s.prog () = .ret reply ∧
      (reply = jsonError "unauthorized" 401 ∨ reply = jsonError "forbidden" 403) := by
  have hrefused : ∀ r db, r.body.updateUser = none → r.GoesTo {} adminMounts →
      (∀ user, db.caller (extractToken r.headers) 0 = some user → user.role ≠ roleAdmin) →
      ∃ s reply, Threads.Reaches serve (loneRequest r db) s ∧ s.prog () = .ret reply ∧
        (reply = jsonError "unauthorized" 401 ∨ reply = jsonError "forbidden" 403) := by
    intro r db hbody hroute hnoAdmin
    obtain ⟨s, hs, hdone⟩ := Threads.exists_finished (h := serve) (loneRequest r db)
    obtain ⟨reply, hreply⟩ := hdone ()
    have hreplies := (demoted_user_refused (d := fun _ => {}) (r := fun _ => r) (i := ())
      (fun _ => rfl) .refl hs rfl (undrawn_loneRequest r db _)
      (fun _ => .inr fun req h => by rw [hbody] at h; cases h) (fun _ => le_rfl) hnoAdmin hroute).2
    exact ⟨s, reply, hs, hreply, hreplies reply hreply⟩
  refine hrefused _ _ rfl goesTo_adminMounts_users fun user huser => ?_
  rw [extractToken_tokenRequest] at huser
  rw [(caller_oneSession huser).2]
  decide

end VaultsSyncer
