import VaultsSyncer.Auth.Middleware
import VaultsSyncer.Storage.Effects

/-! The statements that the functions of the authentication service can make, whatever is answered:
    a predicate on statements holds of all calls of a function if it holds of those named here. -/

namespace VaultsSyncer

open GoStd Schemes Schemes.Prog

variable {p : Stmt → Prop} (bc : Bcrypt)

theorem allCalls_generateFromPassword (password : String) :
    (generateFromPassword bc password).AllCalls (DbCall.Only p) := by
  rw [generateFromPassword]
  split_ifs
  · trivial
  · exact (allCalls_randRead trivial).map _

theorem allCalls_setupAdmin {username password : String}
    (hselect : p (.selectUserByUsername username))
    (hinsert : byteLength password ≤ 72 → ∀ hash t, p (.insertUser username hash roleAdmin t)) :
    (Service.setupAdmin bc username password).AllCalls (DbCall.Only p) := by
  refine (allCalls_exec hselect).bind ?_
  rintro (err | (_ | user))
  · trivial
  · simp only [generateFromPassword]
    split_ifs with hshort
    · trivial
    · refine ((allCalls_randRead trivial).map _).bind ?_
      rintro (err | hash)
      · trivial
      · refine (allCalls_createUser (hinsert (not_lt.mp hshort) hash) hselect).bind ?_
        rintro (err | user) <;> trivial
  · trivial

theorem allCalls_serviceCreateUser {username password role : String}
    (hselect : p (.selectUserByUsername username))
    (hinsert : ∀ hash t, p (.insertUser username hash role t)) :
    (Service.createUser bc username password role).AllCalls (DbCall.Only p) := by
  refine (allCalls_exec hselect).bind ?_
  rintro (err | (_ | user))
  · trivial
  · refine (allCalls_generateFromPassword bc password).bind ?_
    rintro (err | hash)
    · trivial
    · refine (allCalls_createUser (hinsert hash) hselect).bind ?_
      rintro (err | (_ | user)) <;> trivial
  · trivial

theorem allCalls_login {username password : String} (hselect : p (.selectUserByUsername username))
    (hinsert : ∀ id token e t, p (.insertSession id token e t)) :
    (Service.login bc username password).AllCalls (DbCall.Only p) := by
  refine (allCalls_exec hselect).bind ?_
  rintro (err | (_ | user))
  · trivial
  · trivial
  · dsimp only
    split_ifs
    · trivial
    · refine AllCalls.bind ((allCalls_randRead trivial).bind ?_) ?_
      · rintro (err | b) <;> trivial
      · rintro (err | token)
        · trivial
        · refine (allCalls_now trivial).bind fun t => ?_
          refine (allCalls_createSession (hinsert _ _ _)).bind ?_
          rintro (err | ⟨⟩) <;> trivial

theorem allCalls_logout {token : String} (hdelete : p (.deleteSession token)) :
    (Service.logout token).AllCalls (DbCall.Only p) := (allCalls_exec hdelete).map _

theorem allCalls_changePassword {userID : ℤ} {newPassword : String}
    (hupdate : ∀ hash t, p (.updateUserPassword userID hash t)) :
    (Service.changePassword bc userID newPassword).AllCalls (DbCall.Only p) := by
  refine (allCalls_generateFromPassword bc newPassword).bind ?_
  rintro (err | hash)
  · trivial
  · exact (allCalls_now trivial).bind fun t => allCalls_exec (hupdate hash t)

theorem allCalls_changeRole {userID : ℤ} {role : String}
    (hupdate : ∀ t, p (.updateUserRole userID role t)) :
    (Service.changeRole userID role).AllCalls (DbCall.Only p) :=
  (allCalls_now trivial).bind fun t => allCalls_exec (hupdate t)

theorem allCalls_requireAuth {r : AuthHeaders}
    (hsession : ∀ t, p (.selectSession (extractToken r) t)) (huser : ∀ id, p (.selectUserByID id)) :
    (requireAuth r).AllCalls (DbCall.Only p) := by
  rw [requireAuth]
  split_ifs
  · trivial
  · refine AllCalls.bind (AllCalls.bind
      ((allCalls_now trivial).bind fun t => allCalls_exec (hsession t)) ?_) ?_
    · rintro (err | (_ | sess))
      · trivial
      · trivial
      · exact (allCalls_exec (huser _)).map _
    · rintro (err | (_ | user)) <;> trivial

theorem allCalls_mayDelete {userID : ℤ} (hselect : p (.selectUserByID userID))
    (hlist : p .selectUsers) : (Service.mayDelete userID).AllCalls (DbCall.Only p) := by
  refine (allCalls_exec hselect).bind ?_
  rintro (err | (_ | user))
  · trivial
  · trivial
  · dsimp only
    split_ifs
    · refine ((allCalls_exec hlist).map _).bind ?_
      rintro (err | users)
      · trivial
      · dsimp only
        split_ifs <;> trivial
    · trivial

theorem allCalls_serviceDeleteUser {userID : ℤ} (hselect : p (.selectUserByID userID))
    (hlist : p .selectUsers) (hsessions : p (.deleteSessionsOf userID)) (huser : p (.deleteUser userID)) :
    (Service.deleteUser userID).AllCalls (DbCall.Only p) := by
  refine (allCalls_mayDelete hselect hlist).bind ?_
  rintro (err | (_ | ⟨⟩))
  · trivial
  · trivial
  · exact allCalls_deleteUser hsessions huser

/-- A password that is not too long is hashed, with the salt drawn. -/
theorem run_generateFromPassword {password : String} (hshort : byteLength password ≤ 72)
    {env : Surroundings} {salt : Bytes} (hrandom : env.random.head = .ok salt) (db : Database) :
    (generateFromPassword bc password).run serve (env, db) =
      (.ok (bc.hash (takeBytes 16 salt) password), env.drawn, db) := by
  simp only [generateFromPassword, not_lt.mpr hshort, ↓reduceIte, run_bind, run_randRead, hrandom]
  rfl

/-- Otherwise there is no hash. -/
theorem run_generateFromPassword_error {password : String} {env : Surroundings}
    (h : ¬(byteLength password ≤ 72 ∧ ∃ salt, env.random.head = .ok salt)) (db : Database) :
    ∃ err env', (generateFromPassword bc password).run serve (env, db) = (.error err, env', db) ∧
      (env.Works → env'.Works) := by
  rw [generateFromPassword]
  split_ifs with hlong
  · exact ⟨_, env, rfl, id⟩
  · simp only [run_bind, run_randRead]
    rcases hrandom : env.random.head with err | salt
    · exact ⟨err, env.drawn, rfl, .drawn⟩
    · exact absurd ⟨not_lt.mp hlong, salt, hrandom⟩ h

end VaultsSyncer
