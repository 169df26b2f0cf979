import VaultsSyncer.Daemon.Authority

/-! What the daemon finds in its store, wherever it was stopped. Requests come in any number, and each
    makes its statements one by one; still every row is at every moment one that was there at the start, or
    one that an admin route was asked to write (`row_written`). So the stored configuration can be loaded
    at every moment (`store_always_loads`), and no secret is in it in plain (`secrets_stay_sealed`).

        PUT v₁      SELECT        UPDATE
        POST v₂           SELECT        UPDATE  INSERT
        store       ok    ok      ok    ok      ok        -/

namespace VaultsSyncer

open GoStd Schemes Schemes.Prog

section Run

variable {ι : Type} [DecidableEq ι] {d : ι → ApiDeps} {r : ι → HttpRequest}
  {s₀ s : Threads.State DbCall DbCall.Ans Surroundings Database ApiReply ι}

/-- The row is one that an admin route was asked to write. -/
def AskedFor (d : ι → ApiDeps) (r : ι → HttpRequest) (t : ConfigTable) (k raw : String) : Prop :=
  ∃ j, (r j).GoesTo (d j) adminMounts ∧
    (d j).store.AskedRow ((r j).body.vault, (r j).body.sync) t k raw

variable (hstart : ∀ j, s₀.prog j = serveHTTP (d j) (r j)) (hs : Threads.Reaches serve s₀ s)

include hstart hs

/-- Every row was there, or was asked for. -/
theorem row_written {t : ConfigTable} {k raw : String} (h : s.shared.text t k = some raw) :
    s₀.shared.text t k = some raw ∨ AskedFor d r t k raw := by
  refine Threads.Reaches.refl.grounded_invariant hs
    (fun j => by rw [hstart j]; exact grounded_serveHTTP (d j) (r j))
    (I := fun db => ∀ t k raw, db.text t k = some raw →
      s₀.shared.text t k = some raw ∨ AskedFor d r t k raw) (fun t k raw h => .inl h) ?_ t k raw h
  intro j s' seen op _ _ hop hdb
  refine serve_preserves (I := fun db => ∀ t k raw, db.text t k = some raw →
    s₀.shared.text t k = some raw ∨ AskedFor d r t k raw) hop ?_ _ hdb
  intro st db hst hdb t k raw hraw
  rcases text_exec st hraw with hkept | ⟨now, hwritten⟩
  · exact hdb t k raw hkept
  rcases hst with hreads | hentitled
  · rcases hwritten with rfl | rfl <;> cases hreads
  cases hentitled with
  | admin hroute _ _ hs => rcases hwritten with rfl | rfl <;> exact .inr ⟨j, hroute, hs⟩
  | ownSession => rcases hwritten with h | h <;> cases h
  | credentials => rcases hwritten with h | h <;> cases h
  | firstAdmin => rcases hwritten with h | h <;> cases h
  | closing _ _ _ hs => rcases hwritten with rfl | rfl <;> rcases hs with ⟨t, hs⟩ | ⟨t, hs⟩ <;> cases hs

variable {store : ConfigStore} (hstore : ∀ j, (d j).store = store)

include hstore

/-- What the row of a vault says. -/
theorem vault_row_holds {k raw : String} (h : s.shared.text .vaults k = some raw) :
    s₀.shared.text .vaults k = some raw ∨ ∃ j sent, (r j).GoesTo (d j) adminMounts ∧
      (r j).body.vault = some sent ∧
        ∀ pre, store.readVault pre raw = .ok (VaultConfig.reread { sent with id := k }) := by
  refine (row_written hstart hs h).imp_right ?_
  rintro ⟨j, hroute, sent, hsent, hstores⟩
  rw [hstore j] at hstores
  exact ⟨j, sent, hroute, hsent, hstores.read⟩

omit hstore in
variable (store) in
/-- What the row of a sync says. -/
theorem sync_row_holds {k raw : String} (h : s.shared.text .syncs k = some raw) :
    s₀.shared.text .syncs k = some raw ∨ ∃ j sent, (r j).GoesTo (d j) adminMounts ∧
      (r j).body.sync = some sent ∧
        ∀ pre, store.readSync pre raw = .ok (SyncConfig.reread { sent with id := k }) := by
  refine (row_written hstart hs h).imp_right ?_
  rintro ⟨j, hroute, sent, hsent, rfl⟩
  exact ⟨j, sent, hroute, hsent, fun pre => by rw [ConfigStore.readSync, SyncConfig.unmarshal_marshal]⟩

theorem sound_later (hsound : store.Sound s₀.shared) : store.Sound s.shared := by
  constructor
  · intro k raw hraw
    rcases vault_row_holds hstart hs hstore hraw with hold | ⟨j, sent, -, -, hread⟩
    · exact hsound.vaults k raw hold
    · exact ⟨_, rfl, hread⟩
  · intro k raw hraw
    rcases sync_row_holds hstart hs store hraw with hold | ⟨j, sent, -, -, hread⟩
    · exact hsound.syncs k raw hold
    · exact ⟨_, rfl, hread⟩

/-- At every moment of any interleaving of requests, wherever the daemon is stopped, what is stored can be
    loaded; and each vault and sync that is loaded was there, or is what an admin route was sent, as it
    reads back. -/
theorem store_always_loads (hsound : store.Sound s₀.shared) {env : Surroundings} (henv : env.Works) :
    ∃ cfg, (store.loadConfig.run serve (env, s.shared)).1 = .ok cfg ∧
      (∀ v ∈ cfg.vaults, (store.graph s₀.shared).nodes v.id = some v ∨ ∃ j sent,
        (r j).GoesTo (d j) adminMounts ∧ (r j).body.vault = some sent ∧
          v = VaultConfig.reread { sent with id := v.id }) ∧
      ∀ sc ∈ cfg.syncs, (store.graph s₀.shared).links sc.id = some sc ∨ ∃ j sent,
        (r j).GoesTo (d j) adminMounts ∧ (r j).body.sync = some sent ∧
          sc = SyncConfig.reread { sent with id := sc.id } := by
  have hlater := sound_later hstart hs hstore hsound
  obtain ⟨cfg, hloads⟩ := hlater.loads
  refine ⟨cfg, hloads.of_works henv, fun v hv => ?_, fun sc hsc => ?_⟩
  · obtain ⟨raw, htext, -, hread⟩ := hlater.vaults.said_iff.mp ((ConfigStore.mem_vaults hlater hloads).mp hv)
    refine (vault_row_holds hstart hs hstore htext).imp (fun hold => said_of_read hold hread) ?_
    rintro ⟨j, sent, hroute, hsent, hsaid⟩
    exact ⟨j, sent, hroute, hsent, Except.ok.inj ((hread "").symm.trans (hsaid ""))⟩
  · obtain ⟨raw, htext, -, hread⟩ := hlater.syncs.said_iff.mp ((ConfigStore.mem_syncs hlater hloads).mp hsc)
    refine (sync_row_holds hstart hs store htext).imp (fun hold => said_of_read hold hread) ?_
    rintro ⟨j, sent, hroute, hsent, hsaid⟩
    exact ⟨j, sent, hroute, hsent, Except.ok.inj ((hread "").symm.trans (hsaid ""))⟩

omit hstore in
/-- In every vault's row, at every moment, each header value and client secret is a ciphertext under the
    master key, if it was so at the start. -/
theorem secrets_stay_sealed {e : Encryptor} (hcipher : ∀ j, (d j).store.encryptor = some e)
    (hsealed : ∀ k raw, s₀.shared.text .vaults k = some raw →
      ∃ sealed v, Sealed e sealed v ∧ raw = VaultConfig.codec.marshal sealed) :
    ∀ k raw, s.shared.text .vaults k = some raw →
      ∃ sealed v, Sealed e sealed v ∧ raw = VaultConfig.codec.marshal sealed := by
  intro k raw hraw
  rcases row_written hstart hs hraw with hold | ⟨j, -, sent, -, hstores⟩
  · exact hsealed k raw hold
  · rw [ConfigStore.Stores, hcipher j] at hstores
    obtain ⟨sealed, hsealed', hmarshal⟩ := hstores
    exact ⟨sealed, _, hsealed', hmarshal⟩

end Run

/-- An admin makes a vault and a sync at once: both are stored, and what is loaded is what was sent. -/
theorem store_always_loads_created : ∃ s cfg, Threads.Reaches serve (creating {}) s ∧
    s.shared.text .vaults "v" ≠ none ∧ s.shared.text .syncs "s" ≠ none ∧
    ((ConfigStore.loadConfig {}).run serve ({}, s.shared)).1 = .ok cfg ∧
    (∀ v ∈ cfg.vaults, v = VaultConfig.reread { tokenHeaderVault with id := v.id }) ∧
    ∀ sc ∈ cfg.syncs, sc = SyncConfig.reread { tokenHeaderSync with id := sc.id } := by
  have hfollow : (Threads.follow serve (creating {}) (byTurns 8)).map (fun s =>
      ((s.shared.text .vaults "v").isSome, (s.shared.text .syncs "s").isSome)) = some (true, true) := by
    decide +kernel
  obtain ⟨s, hs, hrows⟩ := Threads.exists_of_follow _ _ hfollow
  rw [Prod.mk.injEq, Option.isSome_iff_ne_none, Option.isSome_iff_ne_none] at hrows
  obtain ⟨cfg, hloads, hvaults, hsyncs⟩ := store_always_loads (d := fun _ => {}) (r := creation)
    (fun _ => rfl) hs (fun _ => rfl)
    ⟨fun k raw h => by simp [text_creating] at h, fun k raw h => by simp [text_creating] at h⟩
    Surroundings.works_default
  refine ⟨s, cfg, hs, hrows.1, hrows.2, hloads, fun v hv => ?_, fun sc hsc => ?_⟩
  · rcases hvaults v hv with hold | ⟨sync, sent, -, hsent, hread⟩
    · cases hold
    · cases sync
      · obtain rfl := Option.some.inj hsent
        exact hread
      · cases hsent
  · rcases hsyncs sc hsc with hold | ⟨sync, sent, -, hsent, hread⟩
    · cases hold
    · cases sync
      · cases hsent
      · obtain rfl := Option.some.inj hsent
        exact hread

/-- The header of the vault is stored as a ciphertext. -/
theorem secrets_stay_sealed_created : ∃ s raw,
    Threads.Reaches serve (creating { store := { encryptor := some markingCipher } }) s ∧
    s.shared.text .vaults "v" = some raw ∧
    ∃ sealed v, Sealed markingCipher sealed v ∧ raw = VaultConfig.codec.marshal sealed := by
  have hfollow : (Threads.follow serve (creating { store := { encryptor := some markingCipher } })
      (byTurns 8 ++ [false])).map (fun s => (s.shared.text .vaults "v").isSome) = some true := by
    decide +kernel
  obtain ⟨s, hs, hrow⟩ := Threads.exists_of_follow _ _ hfollow
  obtain ⟨raw, hraw⟩ := Option.isSome_iff_exists.mp hrow
  exact ⟨s, raw, hs, hraw, secrets_stay_sealed (d := fun _ => { store := { encryptor := some markingCipher } })
    (r := creation) (fun _ => rfl) hs (fun _ => rfl) (fun k raw h => by simp [text_creating] at h) "v" raw
    hraw⟩

end VaultsSyncer
