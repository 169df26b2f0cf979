import Mathlib.Data.Fin.VecNotation
import VaultsSyncer.Api.Accounts
import VaultsSyncer.Auth.Effects
import VaultsSyncer.Schemes.Threads

/-! First-run setup under concurrency. `CompleteSetup` reads the marker, looks the username up, inserts
    the user and writes the marker, in separate statements; only the UNIQUE constraint on the username
    stands between two requests that have both read that setup is open.

        request 1    IsSetupComplete = false                    INSERT "a"
        request 2             IsSetupComplete = false   INSERT "b"

    So any set of requests creates one admin at most, in every interleaving, exactly if all the
    acceptable ones ask for the same username (`setup_creates_one_admin_iff`). -/

namespace VaultsSyncer

open GoStd Schemes Schemes.Prog

/-- A setup request that would be carried out, for this username: none of its fields is refused by
    the handler or by bcrypt. -/
def AcceptableSetup (body : Option SetupRequest) (username : String) : Prop :=
  ∃ req, body = some req ∧ req.adminUsername = username ∧ username ≠ "" ∧
    8 ≤ byteLength req.adminPassword ∧ byteLength req.adminPassword ≤ 72

theorem AcceptableSetup.unique {body : Option SetupRequest} {a b : String}
    (ha : AcceptableSetup body a) (hb : AcceptableSetup body b) : a = b := by
  obtain ⟨req, rfl, rfl, -⟩ := ha
  obtain ⟨req', hreq, rfl, -⟩ := hb
  rw [Option.some.inj hreq]

/-- What a setup request may do to the users: add an admin under the username it asks for. -/
def SetupStmt (body : Option SetupRequest) (s : Stmt) : Prop :=
  s.KeepsUsers = true ∨
    ∃ username hash t, AcceptableSetup body username ∧ s = .insertUser username hash roleAdmin t

theorem calls_completeSetup (bc : Bcrypt) (body : Option SetupRequest) :
    (SetupHandler.completeSetup bc body).AllCalls (DbCall.Only (SetupStmt body)) := by
  refine ((allCalls_getSetting (.inl rfl)).map _).bind ?_
  rintro (err | (_ | _))
  · trivial
  · rcases hbody : body with _ | req
    · trivial
    · simp only [SetupHandler.createAdmin]
      split_ifs with hempty hshort
      · trivial
      · trivial
      · rw [not_or] at hempty
        rw [← hbody]
        have hacc (hle : byteLength req.adminPassword ≤ 72) : AcceptableSetup body req.adminUsername :=
          ⟨req, hbody, rfl, hempty.1, not_lt.mp hshort, hle⟩
        refine (allCalls_setupAdmin bc (.inl rfl) fun hle hash t =>
          .inr ⟨_, hash, t, hacc hle, rfl⟩).bind ?_
        rintro (err | ⟨⟩)
        · dsimp only
          split_ifs <;> trivial
        · refine (allCalls_setSetting (fun _ => .inl rfl) fun _ => .inl rfl).bind ?_
          rintro (err | ⟨⟩) <;> trivial
  · trivial

/-- A request that is under way, side by side with others, on a fresh store. -/
def setupThreads {n : ℕ} (bc : Bcrypt) (bodies : Fin n → Option SetupRequest)
    (env : Fin n → Surroundings) :
    Threads.State DbCall DbCall.Ans Surroundings Database ApiReply (Fin n) where
  prog i := SetupHandler.completeSetup bc (bodies i)
  env := env
  shared := .empty

section

variable {n : ℕ} (bc : Bcrypt) (bodies : Fin n → Option SetupRequest)

/-- Every user there is has been asked for by an acceptable request. -/
theorem users_asked_for {env : Fin n → Surroundings}
    {s : Threads.State DbCall DbCall.Ans Surroundings Database ApiReply (Fin n)}
    (hs : Threads.Reaches serve (setupThreads bc bodies env) s) :
    ∀ u ∈ s.shared.users.rows, ∃ i, AcceptableSetup (bodies i) u.username := by
  refine hs.shared_invariant (P := fun i => DbCall.Only (SetupStmt (bodies i)))
    (I := fun db => ∀ u ∈ db.users.rows, ∃ i, AcceptableSetup (bodies i) u.username)
    (fun i => calls_completeSetup bc (bodies i)) ?_ ?_
  · intro u hu
    cases hu
  · intro i op env db hop hdb
    refine serve_preserves
      (I := fun db => ∀ u ∈ db.users.rows, ∃ i, AcceptableSetup (bodies i) u.username) hop ?_ env hdb
    rintro st db (hkeeps | ⟨username, hash, t, hacc, rfl⟩) hdb
    · rwa [Stmt.exec_keepsUsers hkeeps]
    · simp only [Stmt.exec]
      split_ifs with hfree
      · intro u hu
        rcases List.mem_append.mp hu with hu | hu
        · exact hdb u hu
        · rw [List.mem_singleton] at hu
          subst hu
          exact ⟨i, hacc⟩
      · exact hdb

/-- Where all acceptable requests ask for one username, there is never a second user. -/
theorem one_user_of_one_name
    (hone : ∀ i j a b, AcceptableSetup (bodies i) a → AcceptableSetup (bodies j) b → a = b)
    {env : Fin n → Surroundings}
    {s : Threads.State DbCall DbCall.Ans Surroundings Database ApiReply (Fin n)}
    (hs : Threads.Reaches serve (setupThreads bc bodies env) s) :
    s.shared.users.rows.length ≤ 1 := by
  have hasked := users_asked_for bc bodies hs
  have hnodup := s.shared.users.usernames_nodup
  rcases hrows : s.shared.users.rows with _ | ⟨u, _ | ⟨v, us⟩⟩
  · simp
  · simp
  · rw [hrows] at hasked hnodup
    obtain ⟨i, hi⟩ := hasked u (by simp)
    obtain ⟨j, hj⟩ := hasked v (by simp)
    simp [hone i j _ _ hi hj] at hnodup

/-- On a working database an acceptable request adds its admin where the username is free. -/
theorem run_createAdmin {body : Option SetupRequest} {username : String}
    (hacc : AcceptableSetup body username) {env : Surroundings} (h : env.Works)
    (hrandom : env.random.head = .ok []) {db : Database}
    (hfree : db.users.byUsername username = none) :
    ∃ hash t, ((SetupHandler.createAdmin bc body).run serve (env, db)).2.2.users =
      db.users.insert username hash roleAdmin t hfree := by
  obtain ⟨req, rfl, rfl, hname, hlong, hshort⟩ := hacc
  have hpassword : req.adminPassword ≠ "" := by
    intro hempty
    rw [hempty] at hlong
    exact absurd hlong (by decide)
  have hempty : ¬(req.adminUsername = "" ∨ req.adminPassword = "") := by simp [hname, hpassword]
  have hsetup : (Service.setupAdmin bc req.adminUsername req.adminPassword).run serve (env, db) =
      (.ok (), env.next.drawn.tick.next.next, db.insertUser req.adminUsername
        (bc.hash (takeBytes 16 []) req.adminPassword) roleAdmin env.clock.head hfree) := by
    rw [Service.setupAdmin, run_bind, run_getUserByUsername h, hfree]
    dsimp only
    rw [run_bind, run_generateFromPassword bc hshort (by rw [Surroundings.next_random, hrandom])]
    dsimp only
    rw [run_bind, run_createUser h.next.drawn _ _ hfree]
    rfl
  refine ⟨bc.hash (takeBytes 16 []) req.adminPassword, env.clock.head, ?_⟩
  simp only [SetupHandler.createAdmin, hempty, not_lt.mpr hlong, ↓reduceIte]
  rw [run_bind, hsetup]
  refine run_keepsUsers ?_ _ _
  refine (allCalls_setSetting (fun _ => rfl) fun _ => rfl).bind ?_
  rintro (err | ⟨⟩) <;> trivial

/-- On a store that is not set up, the check lets the request through. -/
theorem run_isSetupComplete {env : Surroundings} (h : env.Works) {db : Database}
    (hopen : db.appSettings.lookup "setup_complete" = none) :
    SettingsStore.isSetupComplete.run serve (env, db) = (.ok false, env.next, db) := by
  rw [SettingsStore.isSetupComplete, run_bind, run_getSetting h, hopen]
  rfl

/-- Two acceptable requests under different usernames can both create an admin. -/
theorem two_admins_of_two_names {i j : Fin n} {a b : String} (ha : AcceptableSetup (bodies i) a)
    (hb : AcceptableSetup (bodies j) b) (hab : a ≠ b) :
    ∃ s, Threads.Reaches serve (setupThreads bc bodies fun _ => {}) s ∧
      s.shared.users.rows.length = 2 := by
  have hij : i ≠ j := by
    rintro rfl
    exact hab (ha.unique hb)
  have hworks := Surroundings.works_default
  have h0 : Threads.Reaches serve (setupThreads bc bodies fun _ => {})
      (setupThreads bc bodies fun _ => {}) := .refl
  -- both requests read that setup is open before either goes on
  obtain ⟨s₁, hs₁, hdb₁, hread, -⟩ := h0.advance_finset (J := fun _ x => x = Database.empty)
    (K := fun _ b e => b = .ok false ∧ e = ({} : Surroundings).next) (fun _ => rfl) rfl (by
      rintro k T x - rfl
      have hopen : SettingsStore.isSetupComplete.run serve
          ((setupThreads bc bodies fun _ => {}).env k, .empty) =
            (.ok false, ({} : Surroundings).next, .empty) := run_isSetupComplete hworks rfl
      rw [hopen]
      exact ⟨rfl, rfl, rfl⟩) {i, j}
  obtain ⟨_, ⟨rfl, hei₁⟩, hi₁⟩ := hread i (by simp)
  obtain ⟨_, ⟨rfl, hej₁⟩, hj₁⟩ := hread j (by simp)
  -- then one creates its admin, and so does the other
  have hfree : Database.empty.users.byUsername a = none := rfl
  obtain ⟨hash, t, hfirst⟩ := run_createAdmin bc ha hworks.next rfl hfree
  have hrun : (SetupHandler.createAdmin bc (bodies i)).run serve (s₁.env i, s₁.shared) =
      (SetupHandler.createAdmin bc (bodies i)).run serve (({} : Surroundings).next, .empty) := by
    rw [hei₁, hdb₁]
  obtain ⟨s₂, hs₂, -, -, hdb₂, hrest₂⟩ := hs₁.exists_after (i := i) (f := Prog.ret)
    (p := SetupHandler.createAdmin bc (bodies i)) (by rw [hi₁, bind_ret]) hrun
  obtain ⟨hj₂, hej₂⟩ := hrest₂ j hij.symm
  rw [← hdb₂] at hfirst
  have hfree₂ : s₂.shared.users.byUsername b = none := by
    rw [hfirst]
    refine Table.lookup_eq_none.mpr ?_
    simp [UserTable.insert, Table.Keyed.insert, hab.symm, Database.empty, UserTable.empty,
      Table.Keyed.empty]
  have hworks₂ : (s₂.env j).Works := by
    rw [hej₂, hej₁]
    exact hworks.next
  have hrandom₂ : (s₂.env j).random.head = .ok [] := by
    rw [hej₂, hej₁]
    rfl
  obtain ⟨hash', t', hsecond⟩ := run_createAdmin bc hb hworks₂ hrandom₂ hfree₂
  obtain ⟨s₃, hs₃, -, -, hdb₃, -⟩ := hs₂.exists_after (i := j) (f := Prog.ret)
    (p := SetupHandler.createAdmin bc (bodies j)) (by rw [hj₂, hj₁, bind_ret]) rfl
  refine ⟨s₃, hs₃, ?_⟩
  rw [hdb₃, hsecond, UserTable.length_insert, hfirst, UserTable.length_insert]
  rfl

/-- However many requests there are and however they interleave, setup creates one user at most,
    exactly where the acceptable ones all ask for one username. -/
theorem setup_creates_one_admin_iff :
    (∀ env s, Threads.Reaches serve (setupThreads bc bodies env) s →
      s.shared.users.rows.length ≤ 1) ↔
    ∀ i j a b, AcceptableSetup (bodies i) a → AcceptableSetup (bodies j) b → a = b := by
  constructor
  · intro hsafe i j a b ha hb
    by_contra hab
    obtain ⟨s, hs, hlen⟩ := two_admins_of_two_names bc bodies ha hb hab
    have := hsafe _ s hs
    omega
  · intro hone env s hs
    exact one_user_of_one_name bc bodies hone hs

end

/-- Two requests of which each has read that setup is open leave two admins. -/
theorem setup_creates_two_admins : ¬∀ (n : ℕ) (bc : Bcrypt) (bodies : Fin n → Option SetupRequest) env s,
    Threads.Reaches serve (setupThreads bc bodies env) s → s.shared.users.rows.length ≤ 1 := by
  intro hsafe
  let bodies : Fin 2 → Option SetupRequest :=
    ![some { adminUsername := "a", adminPassword := "password" },
      some { adminUsername := "b", adminPassword := "password" }]
  have ha : AcceptableSetup (bodies 0) "a" := ⟨_, rfl, rfl, by decide, by decide, by decide⟩
  have hb : AcceptableSetup (bodies 1) "b" := ⟨_, rfl, rfl, by decide, by decide, by decide⟩
  obtain ⟨s, hs, hlen⟩ := two_admins_of_two_names plainBcrypt bodies ha hb
    (by decide)
  have := hsafe 2 _ bodies _ s hs
  omega

end VaultsSyncer
