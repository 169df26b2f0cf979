import VaultsSyncer.Auth.Service
import VaultsSyncer.Storage.Effects

/-! Removing users. `DeleteUser` looks the user up, counts the admins, and only then deletes, so what
    it decides (`mayDelete`) is right for the table it has read; nothing holds the table still until
    it deletes. -/

namespace VaultsSyncer

open GoStd Schemes Schemes.Prog

namespace UserTable

/-- The number of admins. -/
def adminCount (t : UserTable) : ℕ := t.rows.countP fun u => u.role = roleAdmin

/-- There is an admin. -/
def HasAdmin (t : UserTable) : Prop := ∃ u ∈ t.rows, u.role = roleAdmin

instance (t : UserTable) : Decidable t.HasAdmin :=
  inferInstanceAs (Decidable (∃ u ∈ t.rows, u.role = roleAdmin))

/-- The ids of the admins. -/
def adminIDs (t : UserTable) : Set ℤ := {i | ∃ u ∈ t.rows, u.role = roleAdmin ∧ u.id = i}

variable {t : UserTable}

theorem hasAdmin_iff_ids : t.HasAdmin ↔ t.adminIDs.Nonempty := by
  constructor
  · rintro ⟨u, hu, hrole⟩
    exact ⟨u.id, u, hu, hrole, rfl⟩
  · rintro ⟨_, u, hu, hrole, -⟩
    exact ⟨u, hu, hrole⟩

theorem hasAdmin_iff : t.HasAdmin ↔ 0 < t.adminCount := by
  simp [HasAdmin, adminCount, List.countP_pos_iff]

theorem mem_delete {id : ℤ} {u : User} : u ∈ (t.delete id).rows ↔ u ∈ t.rows ∧ u.id ≠ id := by
  simp [delete, Table.Keyed.remove, Table.remove]

/-- The admins under an id and those that are left without it. -/
theorem adminCount_split (id : ℤ) : t.adminCount =
    (t.rows.filter fun u => u.id = id).countP (fun u => u.role = roleAdmin) +
      (t.delete id).adminCount := by
  rw [adminCount, List.countP_eq_countP_filter_add _ _ fun u => u.id = id]
  congr 2
  refine List.filter_congr fun u _ => ?_
  simp

theorem adminCount_le_delete (id : ℤ) : t.adminCount ≤ (t.delete id).adminCount + 1 := by
  have hone : (t.rows.filter fun u => u.id = id).countP (fun u => u.role = roleAdmin) ≤ 1 := by
    have hlen := Table.affected_le_one t.keys_nodup id
    rw [Table.affected, List.countP_eq_length_filter] at hlen
    exact List.countP_le_length.trans hlen
  have := adminCount_split (t := t) id
  omega

/-- Where there are two admins, both are counted. -/
theorem two_le_adminCount {u v : User} (hu : u ∈ t.rows) (hv : v ∈ t.rows) (hadmin : u.role = roleAdmin)
    (hadmin' : v.role = roleAdmin) (hne : v.id ≠ u.id) : 2 ≤ t.adminCount := by
  have h1 : 0 < (t.rows.filter fun w => w.id = u.id).countP fun w => w.role = roleAdmin := by
    rw [List.countP_pos_iff]
    exact ⟨u, by simp [hu], by simp [hadmin]⟩
  have h2 : 0 < (t.delete u.id).adminCount := by
    rw [← hasAdmin_iff]
    exact ⟨v, mem_delete.mpr ⟨hv, hne⟩, hadmin'⟩
  have := adminCount_split (t := t) u.id
  omega

/-- What `DeleteUser` makes of the table it reads. -/
def verdict (t : UserTable) (userID : ℤ) : Except GoError (Option Unit) :=
  match t.lookup userID with
  | none => .ok none
  | some user =>
    if user.role = roleAdmin ∧ t.adminCount ≤ 1 then .error errLastAdmin else .ok (some ())

theorem verdict_none {id : ℤ} (h : t.verdict id = .ok none) : t.lookup id = none := by
  rcases hrow : t.lookup id with _ | user
  · rfl
  · simp only [verdict, hrow] at h
    split_ifs at h
    cases h

/-- A user that may be removed is not the only admin. -/
theorem HasAdmin.delete {id : ℤ} (h : t.HasAdmin) (hmay : t.verdict id = .ok (some ())) :
    (t.delete id).HasAdmin := by
  rcases hrow : t.lookup id with _ | user
  · simp [verdict, hrow] at hmay
  · by_cases hadmin : user.role = roleAdmin
    · have hcount : ¬t.adminCount ≤ 1 := by
        intro hle
        simp [verdict, hrow, hadmin, hle] at hmay
      have := adminCount_le_delete (t := t) id
      rw [hasAdmin_iff]
      omega
    · obtain ⟨u, hu, hrole⟩ := h
      refine ⟨u, mem_delete.mpr ⟨hu, ?_⟩, hrole⟩
      rintro rfl
      have hsame : t.lookup u.id = some u := Table.lookup_of_mem t.keys_nodup hu
      rw [hsame, Option.some.injEq] at hrow
      exact hadmin (hrow ▸ hrole)

end UserTable

/-- The list the store returns has every admin of the table. -/
theorem countP_listed (t : UserTable) :
    (((byCreation User.createdAt t.rows).map fun u => { u with passwordHash := "" }).countP
      fun u => u.role = roleAdmin) = t.adminCount := by
  rw [List.countP_map]
  exact (List.perm_insertionSort _ _).countP_eq _

/-- The check writes nothing, and if no statement of it fails it goes by the table. -/
theorem run_mayDelete (userID : ℤ) (env : Surroundings) (db : Database) :
    ∃ env', (env.Works → env'.Works) ∧
      ((¬env.Works ∧ ∃ err, (Service.mayDelete userID).run serve (env, db) = (.error err, env', db)) ∨
        (Service.mayDelete userID).run serve (env, db) = (db.users.verdict userID, env', db)) := by
  simp only [Service.mayDelete, UserStore.getUserByID, UserStore.listUsers, run_bind]
  rcases run_exec_cases "storage: GetUserByID: " (.selectUserByID userID) env db with
    ⟨hfault, err, hrun⟩ | hrun
  · exact ⟨env.next, .next, .inl ⟨hfault, .wrap "auth: DeleteUser: " err, by rw [hrun]; rfl⟩⟩
  · rw [hrun]
    rcases hrow : db.users.lookup userID with _ | user
    · refine ⟨env.next, .next, .inr ?_⟩
      simp [Stmt.exec, Except.mapError, UserTable.verdict, hrow]
    · by_cases hadmin : user.role = roleAdmin
      · rcases run_exec_cases "storage: ListUsers: " .selectUsers env.next db with
          ⟨hfault, err, hrun'⟩ | hrun'
        · refine ⟨env.next.next, fun h => h.next.next,
            .inl ⟨fun h => hfault h.next, .wrap "auth: DeleteUser list: " err, ?_⟩⟩
          simp only [Stmt.exec, Except.mapError, hrow, hadmin, ↓reduceIte, run_bind, hrun']
          rfl
        · refine ⟨env.next.next, fun h => h.next.next, .inr ?_⟩
          simp only [Stmt.exec, Except.mapError, hrow, hadmin, ↓reduceIte, run_bind, hrun', pure_eq,
            run_ret, Except.map, countP_listed, UserTable.verdict, true_and]
          split_ifs <;> rfl
      · refine ⟨env.next, .next, .inr ?_⟩
        simp [Stmt.exec, Except.mapError, UserTable.verdict, hrow, hadmin]

/-- On a working database, the sessions of the user go, and then the user. -/
theorem run_deleteUser {env : Surroundings} (h : env.Works) (userID : ℤ) (db : Database) :
    (UserStore.deleteUser userID).run serve (env, db) =
      (.ok (), env.next.next,
        (db.filterSessions fun s => s.userID ≠ userID).deleteUser userID) := by
  rw [UserStore.deleteUser, run_bind, run_exec h]
  exact run_exec h.next _ _ _

/-- Whatever fails, a deletion leaves the users alone or takes this one out. -/
theorem users_deleteUser (userID : ℤ) (env : Surroundings) (db : Database) :
    ((UserStore.deleteUser userID).run serve (env, db)).2.2.users = db.users ∨
      ((UserStore.deleteUser userID).run serve (env, db)).2.2.users = db.users.delete userID := by
  rw [UserStore.deleteUser, run_bind]
  rcases run_exec_cases "storage: DeleteUser sessions: " (.deleteSessionsOf userID) env db with
    ⟨-, err, hrun⟩ | hrun
  · rw [hrun]
    exact .inl rfl
  · rw [hrun]
    rcases run_exec_cases "storage: DeleteUser: " (.deleteUser userID) env.next
      (db.filterSessions fun s => s.userID ≠ userID) with ⟨-, err, hrun'⟩ | hrun'
    · refine .inl ?_
      simp only [Stmt.exec, Except.mapError, hrun']
      rfl
    · refine .inr ?_
      simp only [Stmt.exec, Except.mapError, hrun']
      rfl

/-- `DeleteUser` keeps an admin, whatever fails. -/
theorem hasAdmin_deleteUser (userID : ℤ) (env : Surroundings) {db : Database}
    (h : db.users.HasAdmin) :
    ((Service.deleteUser userID).run serve (env, db)).2.2.users.HasAdmin := by
  obtain ⟨env', -, ⟨-, err, hrun⟩ | hrun⟩ := run_mayDelete userID env db
  · rw [Service.deleteUser, run_bind, hrun]
    exact h
  · rw [Service.deleteUser, run_bind, hrun]
    rcases hmay : db.users.verdict userID with err | (_ | ⟨⟩)
    · exact h
    · exact h
    · rcases users_deleteUser userID env' db with hsame | hgone
      · dsimp only
        rwa [hsame]
      · dsimp only
        rw [hgone]
        exact h.delete hmay

end VaultsSyncer
