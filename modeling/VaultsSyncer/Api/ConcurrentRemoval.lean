import Mathlib.Data.Fin.VecNotation
import VaultsSyncer.Api.LastAdmin
import VaultsSyncer.Schemes.Threads

/-! Deletions side by side. Each request counts the admins before it deletes, and the count of one says
    nothing of what the others are about to delete:

        request 1    two admins                          DELETE b
        request 2                  two admins                       DELETE a

    An admin is sure to be left exactly where some admin is not being deleted by any of them
    (`admin_left_iff`). -/

namespace VaultsSyncer

open GoStd Schemes Schemes.Prog

/-- A `DeleteUserAccount` of another user by a signed-in admin. -/
def Removes (db : Database) (r : AuthHeaders) (userID : String) (now target : ℤ) : Prop :=
  parseInt64 userID = some target ∧
    ∃ caller, db.AdminCaller (extractToken r) now caller ∧ caller.id ≠ target

/-- What `DeleteUser` does once the check is made. -/
def carryOut (userID : ℤ) : Except GoError (Option Unit) → Db (Except GoError Unit)
  | .error err => return .error err
  | .ok none => return .ok ()
  | .ok (some ()) => UserStore.deleteUser userID

def removalReply : Except GoError Unit → ApiReply
  | .error _ => jsonError "failed to delete user" 500
  | .ok () => jsonOK (.object [("status", .string "deleted")])

def afterCheck (userID : ℤ) (checked : Except GoError (Option Unit)) : Db ApiReply := do
  return removalReply (← carryOut userID checked)

theorem deleteUserAccount_eq {caller : User} {userID : String} {id : ℤ}
    (hid : parseInt64 userID = some id) (hne : caller.id ≠ id) :
    UsersHandler.deleteUserAccount (some caller) userID = Service.mayDelete id >>= afterCheck id := by
  have hdelete : Service.deleteUser id = Service.mayDelete id >>= carryOut id := by
    refine congrArg (Prog.bind _) (funext ?_)
    rintro (err | (_ | ⟨⟩)) <;> rfl
  simp only [UsersHandler.deleteUserAccount, hid, Option.map_some, Option.some.injEq, hne, ↓reduceIte,
    hdelete, bind_assoc]
  refine congrArg (Prog.bind _) (funext fun checked => congrArg (Prog.bind _) (funext ?_))
  rintro (err | ⟨⟩) <;> rfl

section

variable {n : ℕ} (bc : Bcrypt) (db : Database) (r : Fin n → AuthHeaders) (userID : Fin n → String)

/-- The requests under way side by side. -/
def removalThreads (env : Fin n → Surroundings) :
    Threads.State DbCall DbCall.Ans Surroundings Database ApiReply (Fin n) where
  prog i := AccountRequest.program bc (.deleteUserAccount (r i) (userID i))
  env := env
  shared := db

variable {bc db r userID} {now target : Fin n → ℤ}

theorem calls_deleteUserAccount (bc : Bcrypt) {r : AuthHeaders} {userID : String} {id : ℤ}
    (hid : parseInt64 userID = some id) :
    (AccountRequest.program bc (.deleteUserAccount r userID)).AllCalls
      (DbCall.Only fun s => s.KeepsUsers = true ∨ s = .deleteUser id) := by
  refine (allCalls_requireAuth (fun _ => .inl rfl) fun _ => .inl rfl).bind ?_
  rintro (reply | user)
  · trivial
  · simp only [requireAdmin]
    split_ifs
    · trivial
    · simp only [UsersHandler.deleteUserAccount, hid]
      split_ifs
      · trivial
      · refine (allCalls_serviceDeleteUser (.inl rfl) (.inl rfl) (.inl rfl) (.inr rfl)).bind ?_
        rintro (err | ⟨⟩) <;> trivial

/-- A user that none of the requests is about stays. -/
theorem user_stays (hid : ∀ i, parseInt64 (userID i) = some (target i)) {u : User}
    (hu : u ∈ db.users.rows) (huntouched : ∀ i, target i ≠ u.id) {env : Fin n → Surroundings}
    {s : Threads.State DbCall DbCall.Ans Surroundings Database ApiReply (Fin n)}
    (hs : Threads.Reaches serve (removalThreads bc db r userID env) s) : u ∈ s.shared.users.rows := by
  refine hs.shared_invariant (I := fun d => u ∈ d.users.rows)
    (fun i => calls_deleteUserAccount bc (hid i)) hu ?_
  intro i op e d hop hd
  refine serve_preserves (I := fun d => u ∈ d.users.rows) hop ?_ e hd
  rintro s d (hkeeps | rfl) hd
  · rwa [Stmt.exec_keepsUsers hkeeps]
  · exact UserTable.mem_delete.mpr ⟨hd, (huntouched i).symm⟩

/-- Each of the requests passes the check while the table is as it was. -/
theorem verdict_removes {r : AuthHeaders} {userID : String} {now id : ℤ}
    (h : Removes db r userID now id) :
    db.users.verdict id = .ok (some ()) ∨ db.users.verdict id = .ok none ∧ db.users.lookup id = none := by
  obtain ⟨-, caller, ⟨hcaller, hrole⟩, hne⟩ := h
  rcases hrow : db.users.lookup id with _ | user
  · exact .inr ⟨by simp [UserTable.verdict, hrow], rfl⟩
  · left
    obtain ⟨-, sess, -, -, hfound⟩ := Database.caller_eq_some.mp hcaller
    obtain ⟨hmem, -⟩ := Table.Keyed.lookup_eq_some_iff.mp hfound
    obtain ⟨hmem', rfl⟩ := Table.Keyed.lookup_eq_some_iff.mp hrow
    simp only [UserTable.verdict, hrow]
    by_cases hadmin : user.role = roleAdmin
    · have := UserTable.two_le_adminCount hmem' hmem hadmin hrole hne
      simp [hadmin, show ¬db.users.adminCount ≤ 1 by omega]
    · simp [hadmin]

/-- After its check, a request on a working database takes its user out. -/
theorem run_afterCheck {id : ℤ} {checked : Except GoError (Option Unit)}
    (hchecked : checked = .ok (some ()) ∨ checked = .ok none ∧ db.users.lookup id = none)
    {e : Surroundings} (he : e.Works) {d : Database}
    (hsub : ∀ u ∈ d.users.rows, u ∈ db.users.rows) :
    ∀ u ∈ ((afterCheck id checked).run serve (e, d)).2.2.users.rows, u ∈ d.users.rows ∧ u.id ≠ id := by
  intro u hu
  rw [afterCheck, run_bind_ret serve (f := fun done => pure (removalReply done))
    fun _ => ⟨_, rfl⟩] at hu
  rcases hchecked with rfl | ⟨rfl, hnone⟩
  · rw [carryOut, run_deleteUser he] at hu
    exact UserTable.mem_delete.mp hu
  · refine ⟨hu, ?_⟩
    rintro rfl
    exact Table.lookup_eq_none.mp hnone (List.mem_map_of_mem (hsub u hu))

/-- All requests pass their checks before any of them deletes, and then all users asked for go. -/
theorem all_removed (bc : Bcrypt) (h : ∀ i, Removes db (r i) (userID i) (now i) (target i)) :
    ∃ s, Threads.Reaches serve
        (removalThreads bc db r userID fun i => { clock := Stream'.const (now i) }) s ∧
      s.Finished ∧ ∀ u ∈ s.shared.users.rows, u ∈ db.users.rows ∧ ∀ i, u.id ≠ target i := by
  have hworks (i : Fin n) : ({ clock := Stream'.const (now i) } : Surroundings).Works := fun _ => rfl
  choose hid caller hcaller hne using h
  -- every request finds its caller
  have h0 : Threads.Reaches serve
      (removalThreads bc db r userID fun i => { clock := Stream'.const (now i) }) _ := .refl
  obtain ⟨s₁, hs₁, hdb₁, hprog₁⟩ := h0.advance_each (p := fun i => requireAuth (r i))
    (J := fun _ d => d = db)
    (K := fun i b e => b = (Except.ok (caller i) : Except ApiReply User) ∧ e.Works)
    (fun i => rfl) rfl (by
      rintro i T d - rfl
      obtain ⟨env', hworks', -, ⟨hfault, -⟩ | hrun⟩ :=
        run_requireAuth (r i) { clock := Stream'.const (now i) } d
      · exact absurd (hworks i) hfault
      · dsimp only [removalThreads]
        rw [hrun]
        exact ⟨rfl, admission_eq_ok.mpr (hcaller i).1, hworks' (hworks i)⟩)
  have hcheck (i : Fin n) : s₁.prog i = Service.mayDelete (target i) >>= afterCheck (target i) := by
    obtain ⟨b, ⟨rfl, -⟩, hprog⟩ := hprog₁ i
    rw [hprog, ← deleteUserAccount_eq (hid i) (hne i)]
    simp [requireAdmin, (hcaller i).2]
  -- every check is made on the table as it was
  obtain ⟨s₂, hs₂, hdb₂, hprog₂⟩ := hs₁.advance_each (f := fun i => afterCheck (target i))
    (J := fun _ d => d = db) (K := fun i b e => e.Works ∧
      (b = .ok (some ()) ∨ b = .ok none ∧ db.users.lookup (target i) = none)) hcheck hdb₁ (by
      rintro i T d - rfl
      obtain ⟨b, ⟨-, hworks₁⟩, -⟩ := hprog₁ i
      obtain ⟨env', hworks', ⟨hfault, -⟩ | hrun⟩ := run_mayDelete (target i) (s₁.env i) d
      · exact absurd hworks₁ hfault
      · rw [hrun]
        exact ⟨rfl, hworks' hworks₁, verdict_removes ⟨hid i, caller i, hcaller i, hne i⟩⟩)
  -- then each of them deletes
  obtain ⟨s₃, hs₃, hdb₃, hprog₃⟩ := hs₂.advance_each (p := s₂.prog) (f := fun _ => Prog.ret)
    (J := fun T d => ∀ u ∈ d.users.rows, u ∈ db.users.rows ∧ ∀ i ∈ T, u.id ≠ target i)
    (K := fun _ _ _ => True) (fun i => (bind_ret _).symm) (by simp [hdb₂]) (by
      intro i T d _ hd
      obtain ⟨b, ⟨hworks₂, hb⟩, hprog⟩ := hprog₂ i
      refine ⟨fun u hu => ?_, trivial⟩
      rw [hprog] at hu
      obtain ⟨hu, hgone⟩ := run_afterCheck hb hworks₂ (fun u hu => (hd u hu).1) u hu
      refine ⟨(hd u hu).1, fun j hj => ?_⟩
      rcases Finset.mem_insert.mp hj with rfl | hj
      · exact hgone
      · exact (hd u hu).2 j hj)
  refine ⟨s₃, hs₃, fun i => ?_, fun u hu => ?_⟩
  · obtain ⟨b, -, hprog⟩ := hprog₃ i
    exact ⟨b, hprog⟩
  · obtain ⟨hmem, hne⟩ := hdb₃ u hu
    exact ⟨hmem, fun i => hne i (Finset.mem_univ i)⟩

/-- However the requests interleave, an admin is left when all are done, exactly where one of the
    admins is not the target of any of them. -/
theorem admin_left_iff (h : ∀ i, Removes db (r i) (userID i) (now i) (target i)) :
    (∀ env, (∀ i, (env i).clock.head = now i) → ∀ s,
      Threads.Reaches serve (removalThreads bc db r userID env) s → s.Finished →
        s.shared.users.HasAdmin) ↔
    ∃ u ∈ db.users.rows, u.role = roleAdmin ∧ ∀ i, target i ≠ u.id := by
  constructor
  · intro hsafe
    obtain ⟨s, hs, hfinished, hrows⟩ := all_removed bc h
    obtain ⟨u, hu, hrole⟩ := hsafe _ (fun _ => rfl) s hs hfinished
    exact ⟨u, (hrows u hu).1, hrole, fun i => ((hrows u hu).2 i).symm⟩
  · rintro ⟨u, hu, hrole, huntouched⟩ env - s hs -
    exact ⟨u, user_stays (fun i => (h i).1) hu huntouched hs, hrole⟩

end

/-- Two admins, both signed in. -/
def twoAdmins : Database :=
  let admins := (Database.empty.insertUser "a" "" roleAdmin 0 rfl).insertUser "b" "" roleAdmin 0
    (by decide)
  (admins.insertSession 1 "s" 10 0 rfl (by decide)).insertSession 2 "t" 10 0 (by decide) (by decide)

theorem removes_twoAdmins (i : Fin 2) : Removes twoAdmins
    { sessionCookie := some (if i = 0 then "s" else "t") } (if i = 0 then "2" else "1") 0
    (if i = 0 then 2 else 1) := by
  refine ⟨?_, (twoAdmins.users.lookup (i + 1)).getD ⟨0, "", "", "", 0, 0⟩, ?_, ?_⟩ <;>
    revert i <;> decide +kernel

/-- And a third one. -/
def threeAdmins : Database := twoAdmins.insertUser "c" "" roleAdmin 0 (by decide)

theorem removes_threeAdmins (i : Fin 2) : Removes threeAdmins
    { sessionCookie := some (if i = 0 then "s" else "t") } (if i = 0 then "2" else "1") 0
    (if i = 0 then 2 else 1) := by
  refine ⟨?_, (threeAdmins.users.lookup (i + 1)).getD ⟨0, "", "", "", 0, 0⟩, ?_, ?_⟩ <;>
    revert i <;> decide +kernel

/-- Two of three admins delete each other at the same time, and the third one is left. -/
theorem admin_left_iff_three : ∃ s, Threads.Reaches serve (removalThreads plainBcrypt threeAdmins
      (fun i : Fin 2 => { sessionCookie := some (if i = 0 then "s" else "t") })
      (fun i => if i = 0 then "2" else "1") fun _ => { clock := Stream'.const 0 }) s ∧
    s.Finished ∧ s.shared.users.HasAdmin ∧ ∀ u ∈ s.shared.users.rows, u.id = 3 := by
  obtain ⟨s, hs, hfinished, hrows⟩ := all_removed plainBcrypt removes_threeAdmins
  refine ⟨s, hs, hfinished,
    (admin_left_iff removes_threeAdmins).mpr ?_ _ (fun _ => rfl) s hs hfinished, fun u hu => ?_⟩
  · obtain ⟨u, hu, hid, hrole⟩ : ∃ u ∈ threeAdmins.users.rows, u.id = 3 ∧ u.role = roleAdmin := by decide
    refine ⟨u, hu, hrole, fun i => ?_⟩
    rw [hid]
    split_ifs <;> decide
  · obtain ⟨hmem, hne⟩ := hrows u hu
    have hids : ∀ u ∈ threeAdmins.users.rows, u.id = 1 ∨ u.id = 2 ∨ u.id = 3 := by decide +kernel
    rcases hids u hmem with hid | hid | hid
    · exact absurd hid (hne 1)
    · exact absurd hid (hne 0)
    · exact hid

/-- Two admins who delete each other at the same time are both gone. -/
theorem both_admins_removed : ¬∀ (n : ℕ) (bc : Bcrypt) (db : Database) (r : Fin n → AuthHeaders)
    (userID : Fin n → String) (now target : Fin n → ℤ), db.users.HasAdmin →
    (∀ i, Removes db (r i) (userID i) (now i) (target i)) → ∀ env,
    (∀ i, (env i).clock.head = now i) → ∀ s,
    Threads.Reaches serve (removalThreads bc db r userID env) s → s.Finished →
    s.shared.users.HasAdmin := by
  intro hall
  obtain ⟨s, hs, hfinished, hrows⟩ := all_removed plainBcrypt removes_twoAdmins
  obtain ⟨u, hu, hrole⟩ := hall 2 _ _ _ _ _ _ (by decide) removes_twoAdmins _ (fun _ => rfl) s hs
    hfinished
  obtain ⟨hmem, hne⟩ := hrows u hu
  have hids : ∀ u ∈ twoAdmins.users.rows, u.id = 1 ∨ u.id = 2 := by decide +kernel
  rcases hids u hmem with hid | hid
  · exact hne 1 hid
  · exact hne 0 hid

end VaultsSyncer
