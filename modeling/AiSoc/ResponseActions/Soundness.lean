import AiSoc.ResponseActions.Lifecycle

namespace ResponseActions

open Permissions (Uuid Timestamp)
open RowStore Process

structure Frame (u : Nat) (db db' : Db) : Prop where
  lock : db.actions.SameLocks db'.actions u
  held : ∀ id row, db.actions.lock id = some (u, row) →
    db'.actions.committed id = db.actions.committed id ∧ db'.claimedBy id = db.claimedBy id
  owned : ∀ id row, Owned u id row db →
    Owned u id row db' ∧ db'.effects.count id = db.effects.count id
  revoking : db'.revoking u = db.revoking u

theorem Frame.holds {u : Nat} {ψ : Phase} {db db' : Db} (h : Frame u db db')
    (hψ : ψ.holds u db) : ψ.holds u db' := by
  cases ψ with
  | idle => exact ⟨h.lock.noLocks hψ.1, h.revoking.trans hψ.2⟩
  | inserting =>
      refine ⟨fun id row hl => ?_, h.revoking.trans hψ.2⟩
      have hl' := (h.lock id row).mp hl
      rw [(h.held id row hl').1]
      exact hψ.1 id row hl'
  | locked id row =>
      obtain ⟨hl, hc, ho, hr⟩ := hψ
      exact ⟨(h.lock id row).mpr hl, (h.held id row hl).1.trans hc, h.lock.onlyLock ho,
        h.revoking.trans hr⟩
  | changed id row row' =>
      obtain ⟨hl, hc, ho, hm, ht, hcl, hres, hr⟩ := hψ
      refine ⟨(h.lock id row').mpr hl, (h.held id row' hl).1.trans hc, h.lock.onlyLock ho, hm, ht,
        fun hrun => (h.held id row' hl).2.trans (hcl hrun), hres, ?_⟩
      rw [h.revoking]
      exact hr
  | owner id row =>
      obtain ⟨hn, ho, he, hr⟩ := hψ
      obtain ⟨ho', he'⟩ := h.owned id row ho
      exact ⟨h.lock.noLocks hn, ho', he'.trans he, h.revoking.trans hr⟩
  | acted id row =>
      obtain ⟨hn, ho, hres, hr⟩ := hψ
      refine ⟨h.lock.noLocks hn, (h.owned id row ho).1, hres, ?_⟩
      rw [h.revoking]
      exact hr
  | failing id row =>
      obtain ⟨hn, ho, hr⟩ := hψ
      exact ⟨h.lock.noLocks hn, (h.owned id row ho).1, h.revoking.trans hr⟩

theorem Frame.refl (u : Nat) (db : Db) : Frame u db db :=
  ⟨Table.SameLocks.refl _ _, fun _ _ _ => ⟨rfl, rfl⟩, fun _ _ h => ⟨h, rfl⟩, rfl⟩

section RowLocks

variable {t : Nat} {db : Db}

theorem frame_queue (u : Nat) (db : Db) (queue : List Uuid) :
    Frame u db { db with queue := queue } :=
  ⟨Table.SameLocks.refl _ _, fun _ _ _ => ⟨rfl, rfl⟩, fun _ _ h => ⟨h, rfl⟩, rfl⟩

theorem frame_setLock {id : Uuid} {row : ResponseAction} {tb : ActionTable} {u : Nat}
    (hb : ¬ db.actions.blocked t id) (hu : u ≠ t) (hc : tb.committed = db.actions.committed)
    (hl : tb.lock = (db.actions.setLock t id row).lock) :
    Frame u db { db with actions := tb } where
  lock id' row' := by
    change tb.lock id' = some (u, row') ↔ _
    rw [hl]
    exact Table.setLock_lock_of_other hb hu
  held _ _ _ := ⟨congrFun hc _, rfl⟩
  owned id' row' ho := ⟨⟨(congrFun hc _).trans ho.1, ho.2⟩, rfl⟩
  revoking := rfl

end RowLocks

section Exec

variable {t : Nat} {c : Choice} {db db' : Db}

def Stmt.quiet : Stmt → Bool
  | .now | .proposeReads _ _ | .get _ | .scanApproved | .rpush _ | .lpop | .userExists _ => true
  | _ => false

theorem exec_quiet {q : Stmt} {r : Result q} (hq : q.quiet = true)
    (h : exec t q c db = some (r, db')) : ∃ queue, db' = { db with queue := queue } := by
  cases q with
  | now =>
      cases c with
      | time now => cases h; exact ⟨db.queue, rfl⟩
      | _ => cases h
  | proposeReads =>
      cases c with
      | reads => cases h; exact ⟨db.queue, rfl⟩
      | _ => cases h
  | userExists =>
      cases c with
      | flag b => cases h; exact ⟨db.queue, rfl⟩
      | _ => cases h
  | get | rpush | lpop => cases h; exact ⟨_, rfl⟩
  | scanApproved =>
      cases c with
      | uuids ids =>
          simp only [exec] at h
          split at h
          · cases h; exact ⟨db.queue, rfl⟩
          · cases h
      | _ => cases h
  | _ => cases hq

theorem next_quiet {φ : Phase} {q : Stmt} (hq : q.quiet = true) (r : Result q) :
    φ.next q r φ := by
  cases q <;> first | rfl | cases hq

theorem exec_insertAction {row : ResponseAction} {r : Uuid}
    (h : exec t (.insertAction row) c db = some (r, db')) :
    ∃ tb, db.actions.insert t r row = some tb ∧ db' = { db with actions := tb } := by
  cases c with
  | uuid id =>
      obtain ⟨tb, hi, ho⟩ := Option.map_eq_some_iff.mp h
      cases ho
      exact ⟨tb, hi, rfl⟩
  | _ => cases h

theorem exec_getForUpdate {id : Uuid} {r : Option ResponseAction}
    (h : exec t (.getForUpdate id) c db = some (r, db')) :
    ∃ tb, db.actions.getForUpdate t id = some (r, tb) ∧ db' = { db with actions := tb } := by
  obtain ⟨⟨r', tb⟩, hi, ho⟩ := Option.map_eq_some_iff.mp h
  cases ho
  exact ⟨tb, hi, rfl⟩

theorem exec_write {id : Uuid} {f : ResponseAction → ResponseAction} {r : Unit}
    (h : exec t (.write id f) c db = some (r, db')) :
    ∃ r' tb, db.actions.recheckRow t id (fun _ => true) f = some (r', tb) ∧
      db' = { db with actions := tb } := by
  obtain ⟨⟨r', tb⟩, hi, ho⟩ := Option.map_eq_some_iff.mp h
  cases ho
  exact ⟨r', tb, hi, rfl⟩

theorem exec_claim {id : Uuid} {now : Timestamp} {r : Option ResponseAction}
    (h : exec t (.claim id now) c db = some (r, db')) :
    ∃ tb, db.actions.updateByKey t id isApproved (claimed now) = some (r, tb) ∧
      db' = { db with actions := tb } := by
  obtain ⟨⟨r', tb⟩, hi, ho⟩ := Option.map_eq_some_iff.mp h
  cases ho
  exact ⟨tb, hi, rfl⟩

theorem exec_effect {q : Stmt} {id : Uuid} {r : Result q}
    (hq : (∃ userId, q = .revokeUser id userId) ∨ q = .executeAwsAction id)
    (h : exec t q c db = some (r, db')) :
    db'.actions = db.actions ∧ db'.revoked = db.revoked ∧ db'.trail = db.trail ∧
      db'.claimedBy = db.claimedBy ∧ db'.effects = id :: db.effects ∧
      ∀ u, u ≠ t → db'.revoking u = db.revoking u := by
  rcases hq with ⟨userId, rfl⟩ | rfl <;> cases c <;> cases h <;>
    exact ⟨rfl, rfl, rfl, rfl, rfl, fun u hu => by simp [hu]⟩

theorem frame_effect {q : Stmt} {id : Uuid} {row : ResponseAction} {r : Result q} {u : Nat}
    (hq : (∃ userId, q = .revokeUser id userId) ∨ q = .executeAwsAction id)
    (hown : Owned t id row db) (hu : u ≠ t)
    (h : exec t q c db = some (r, db')) : Frame u db db' := by
  obtain ⟨ha, hrev, htr, hcl, heff, hrk⟩ := exec_effect hq h
  refine ⟨fun id' row' => by rw [ha], fun id' row' _ => by rw [ha, hcl]; exact ⟨rfl, rfl⟩,
    fun id' row' ho => ⟨?_, ?_⟩, hrk u hu⟩
  · unfold Owned
    rw [ha, hcl]
    exact ho
  · have hne : id ≠ id' := by
      rintro rfl
      have hut : some u = some t := ho.2.2.symm.trans hown.2.2
      exact hu (Option.some.inj hut)
    rw [heff, List.count_cons_of_ne hne]

theorem inv_effect {q : Stmt} {id : Uuid} {row : ResponseAction} {r : Result q}
    (hinv : Inv db) (hq : (∃ userId, q = .revokeUser id userId) ∨ q = .executeAwsAction id)
    (hown : Owned t id row db) (hfresh : db.effects.count id = 0)
    (h : exec t q c db = some (r, db')) : Inv db' := by
  obtain ⟨ha, hrev, htr, hcl, heff, _⟩ := exec_effect hq h
  intro id'
  rw [ha, hrev, htr, hcl, heff]
  rcases eq_or_ne id id' with rfl | hne
  · have hrow := hinv.row hown.1
    have hcount : (id :: db.effects).count id = 1 := by
      rw [List.count_cons_self, hfresh]
    rw [hown.1, hcount]
    exact ⟨hrow.history, hrow.head, hrow.claimed, le_refl 1,
      fun _ => by rw [hown.2.1]; rfl, hrow.revoked, hrow.resolved⟩
  · rw [List.count_cons_of_ne hne]
    exact hinv id'

theorem owned_effect {q : Stmt} {id : Uuid} {row : ResponseAction} {r : Result q}
    (hq : (∃ userId, q = .revokeUser id userId) ∨ q = .executeAwsAction id)
    (hown : Owned t id row db) (h : exec t q c db = some (r, db')) : Owned t id row db' := by
  obtain ⟨ha, _, _, hcl, _, _⟩ := exec_effect hq h
  unfold Owned
  rw [ha, hcl]
  exact hown

theorem Moves.claimed {a b : ActionStatus} {t : Nat} {claim : Option Nat} (h : Moves a b)
    (ha : a.started = claim.isSome) :
    b.started = (if b = .running then some t else claim).isSome := by
  cases h with
  | claim => rfl
  | approve | reject | succeed | fail => simpa [ActionStatus.started] using ha

section Transactions

theorem committedTrail_of_not_held {id : Uuid}
    (h : ∀ row, db.actions.lock id ≠ some (t, row)) : committedTrail db t id = db.trail id := by
  unfold committedTrail
  split
  · rename_i u row hl
    rw [if_neg]
    rintro ⟨rfl, _⟩
    exact h row hl
  · rfl

theorem committedClaim_of_not_held {id : Uuid}
    (h : ∀ row, db.actions.lock id ≠ some (t, row)) :
    committedClaim db t id = db.claimedBy id := by
  unfold committedClaim
  split
  · rename_i u row hl
    rw [if_neg]
    rintro ⟨rfl, _⟩
    exact h row hl
  · rfl

theorem committedTrail_of_lock {id : Uuid} {row : ResponseAction}
    (h : db.actions.lock id = some (t, row))
    (hne : (db.actions.committed id).map (·.status) ≠ some row.status) :
    committedTrail db t id = row.status :: db.trail id := by
  simp [committedTrail, h, hne]

theorem committedClaim_of_lock {id : Uuid} {row : ResponseAction}
    (h : db.actions.lock id = some (t, row))
    (hne : (db.actions.committed id).map (·.status) ≠ some row.status) :
    committedClaim db t id = if row.status = .running then some t else db.claimedBy id := by
  simp only [committedClaim, h, true_and]
  by_cases hrun : row.status = .running
  · rw [hrun] at hne
    simp [hrun, hne]
  · simp [hrun]

theorem idInv_commit_of_not_held {id : Uuid} (hinv : Inv db)
    (hl : ∀ row, db.actions.lock id ≠ some (t, row))
    (hr : ∀ userId, (id, userId) ∉ db.revoking t) :
    IdInv ((commitTx t db).actions.committed id) ((commitTx t db).trail id)
      ((commitTx t db).claimedBy id) ((commitTx t db).effects.count id)
      fun userId => (id, userId) ∈ (commitTx t db).revoked := by
  have hc : (commitTx t db).actions.committed id = db.actions.committed id :=
    Table.commit_committed_of_not_held hl
  have htr : (commitTx t db).trail id = db.trail id := committedTrail_of_not_held hl
  have hcl : (commitTx t db).claimedBy id = db.claimedBy id := committedClaim_of_not_held hl
  have hrev : (fun userId => (id, userId) ∈ (commitTx t db).revoked) =
      fun userId => (id, userId) ∈ db.revoked := by
    funext userId
    simp [commitTx, hr userId]
  rw [hc, htr, hcl, hrev]
  exact hinv id

theorem inv_commit_idle (hinv : Inv db) (h : Phase.idle.holds t db) : Inv (commitTx t db) :=
  fun id => idInv_commit_of_not_held hinv (h.1 id) (by simp [h.2])

theorem inv_commit_inserting (hinv : Inv db) (h : Phase.inserting.holds t db) :
    Inv (commitTx t db) := by
  intro id
  by_cases hl : ∃ row, db.actions.lock id = some (t, row)
  · obtain ⟨row, hl⟩ := hl
    obtain ⟨hnone, hstatus⟩ := h.1 id row hl
    have habs := hinv.absent hnone
    have hc : (commitTx t db).actions.committed id = some row :=
      Table.commit_committed_of_lock hl
    have hne : (db.actions.committed id).map (·.status) ≠ some row.status := by
      rw [hnone]
      simp
    have htr : (commitTx t db).trail id = [.proposed] :=
      (committedTrail_of_lock hl hne).trans (by rw [habs.trail, hstatus])
    have hcl : (commitTx t db).claimedBy id = none :=
      (committedClaim_of_lock hl hne).trans (by rw [hstatus, habs.claimed]; rfl)
    have heff : (commitTx t db).effects.count id = 0 := habs.effects
    rw [hc, htr, hcl, heff]
    refine ⟨.proposed, by rw [hstatus]; rfl, by rw [hstatus]; rfl, by simp, by simp, ?_,
      by rw [hstatus]; rintro ⟨⟩⟩
    intro userId
    have hno : (id, userId) ∉ (commitTx t db).revoked := by
      simpa [commitTx, h.2] using habs.revoked userId
    simp [hno, hstatus]
  · exact idInv_commit_of_not_held hinv (fun row hrow => hl ⟨row, hrow⟩) (by simp [h.2])

theorem inv_commit_changed {id : Uuid} {row row' : ResponseAction} (hinv : Inv db)
    (h : (Phase.changed id row row').holds t db) : Inv (commitTx t db) := by
  obtain ⟨hl, hcom, honly, hmoves, htarget, hclaim, hres, hrevoking⟩ := h
  intro id'
  rcases eq_or_ne id' id with rfl | hne
  · have hrow := hinv.row hcom
    have hdiff : (db.actions.committed id').map (·.status) ≠ some row'.status := by
      rw [hcom]
      simpa using hmoves.ne
    have hc : (commitTx t db).actions.committed id' = some row' :=
      Table.commit_committed_of_lock hl
    have htr : (commitTx t db).trail id' = row'.status :: db.trail id' :=
      committedTrail_of_lock hl hdiff
    have hcl : (commitTx t db).claimedBy id' =
        if row'.status = .running then some t else db.claimedBy id' :=
      committedClaim_of_lock hl hdiff
    have hclaimed := hrow.claimed
    rw [hc, htr, hcl]
    refine ⟨?_, rfl, ?_, hrow.once, fun hpos => ?_, fun userId => ?_, hres⟩
    · obtain ⟨l, hcons⟩ := List.head?_eq_some_iff.mp hrow.head
      have hhist := hrow.history
      rw [hcons] at hhist ⊢
      exact .move hhist hmoves
    · exact hmoves.claimed hclaimed
    · obtain ⟨_, hs | hs⟩ := hmoves.from_started (hrow.afterClaim hpos) <;> rw [hs] <;> rfl
    · have hold : (id', userId) ∉ db.revoked := by
        rw [hrow.revoked userId]
        rintro ⟨hs, _⟩
        have := hmoves.not_terminal
        rw [hs] at this
        cases this
      simp only [commitTx, List.mem_append, hold, or_false, hrevoking, true_and]
  · refine idInv_commit_of_not_held hinv (fun r hr => hne (honly id' r hr)) ?_
    intro userId
    rw [hrevoking]
    exact fun hm => hne hm.1

theorem frame_commit {φ : Phase} {u : Nat} (hφ : φ.holds t db)
    (hallowed : φ.allowed .commit) (hu : u ≠ t) : Frame u db (commitTx t db) where
  lock := Table.sameLocks_commit db.actions hu
  held id row hl := by
    have hn : ∀ row', db.actions.lock id ≠ some (t, row') := by
      intro row' hrow'
      rw [hl] at hrow'
      cases hrow'
      exact hu rfl
    exact ⟨Table.commit_committed_of_not_held hn, committedClaim_of_not_held hn⟩
  owned id row ho := by
    have hn : ∀ row', db.actions.lock id ≠ some (t, row') := by
      intro row' hrow'
      rcases hallowed with rfl | rfl | ⟨id', old, new, rfl⟩
      · exact hφ.1 id row' hrow'
      · have hnone := (hφ.1 id row' hrow').1
        rw [ho.1] at hnone
        cases hnone
      · obtain ⟨_, hcom, honly, hmoves, _, hclaim, _, _⟩ := hφ
        obtain rfl := honly id row' hrow'
        rw [ho.1] at hcom
        cases hcom
        have hut : some u = some t := ho.2.2.symm.trans (hclaim ho.2.1)
        exact hu (Option.some.inj hut)
    refine ⟨⟨?_, ho.2.1, ?_⟩, rfl⟩
    · exact (Table.commit_committed_of_not_held hn).trans ho.1
    · exact (committedClaim_of_not_held hn).trans ho.2.2
  revoking := by simp [commitTx, hu]

theorem frame_rollback {u : Nat} (hu : u ≠ t) : Frame u db (rollbackTx t db) where
  lock := Table.sameLocks_rollback db.actions hu
  held _ _ _ := ⟨rfl, rfl⟩
  owned _ _ ho := ⟨ho, rfl⟩
  revoking := by simp [rollbackTx, hu]

theorem revoking_rollback (t : Nat) (db : Db) : (rollbackTx t db).revoking t = [] := by
  simp [rollbackTx]

theorem revoking_commit (t : Nat) (db : Db) : (commitTx t db).revoking t = [] := by
  simp [commitTx]

end Transactions

section Soundness

variable {settings : Settings}

theorem sound_quiet {φ : Phase} {q : Stmt} {r : Result q} (hq : q.quiet = true) (hinv : Inv db)
    (hφ : φ.holds t db) (h : exec t q c db = some (r, db')) :
    Inv db' ∧ ∃ ψ, φ.next q r ψ ∧ ψ.holds t db' := by
  obtain ⟨queue, rfl⟩ := exec_quiet hq h
  exact ⟨hinv, φ, next_quiet hq r, (frame_queue t db queue).holds hφ⟩

theorem sound_insertAction {row : ResponseAction} {r : Uuid} (hinv : Inv db)
    (hφ : Phase.idle.holds t db) (hrow : row.status = .proposed)
    (h : exec t (.insertAction row) c db = some (r, db')) :
    Inv db' ∧ Phase.inserting.holds t db' := by
  obtain ⟨tb, hi, rfl⟩ := exec_insertAction h
  obtain ⟨hc, _, rfl⟩ := Table.insert_cases hi
  refine ⟨hinv, fun id row' hl => ?_, hφ.2⟩
  obtain rfl := (Table.NoLocks.onlyLock hφ.1 _).setLock _ id row' hl
  have hself := hl.symm.trans (Table.setLock_lock_self _ _ _ _)
  cases hself
  exact ⟨hc, hrow⟩

theorem sound_getForUpdate {id : Uuid} {r : Option ResponseAction} (hinv : Inv db)
    (hφ : Phase.idle.holds t db) (h : exec t (.getForUpdate id) c db = some (r, db')) :
    Inv db' ∧ ∃ ψ, Phase.idle.next (.getForUpdate id) r ψ ∧ ψ.holds t db' := by
  obtain ⟨tb, hi, rfl⟩ := exec_getForUpdate h
  rcases Table.getForUpdate_cases hi with ⟨rfl, _, rfl⟩ | ⟨row, rfl, hview, _, rfl⟩
  · exact ⟨hinv, .idle, rfl, hφ⟩
  · have hc : db.actions.committed id = some row := (Table.NoLocks.view hφ.1 id).symm.trans hview
    exact ⟨hinv, .locked id row, rfl, Table.setLock_lock_self _ _ _ _, hc,
      (Table.NoLocks.onlyLock hφ.1 id).setLock _, hφ.2⟩

theorem sound_claim {id : Uuid} {now : Timestamp} {r : Option ResponseAction} (hinv : Inv db)
    (hφ : Phase.idle.holds t db) (h : exec t (.claim id now) c db = some (r, db')) :
    Inv db' ∧ ∃ ψ, Phase.idle.next (.claim id now) r ψ ∧ ψ.holds t db' := by
  obtain ⟨tb, hi, rfl⟩ := exec_claim h
  rcases Table.updateByKey_cases hi with ⟨rfl, rfl⟩ | ⟨row, hview, hrow, _, rfl, rfl⟩
  · exact ⟨hinv, .idle, rfl, hφ⟩
  · have happroved : row.status = .approved := by simpa [isApproved] using hrow
    have hc : db.actions.committed id = some row := (Table.NoLocks.view hφ.1 id).symm.trans hview
    refine ⟨hinv, .changed id row (claimed now row), ⟨row, happroved, rfl, rfl⟩,
      Table.setLock_lock_self _ _ _ _, hc, (Table.NoLocks.onlyLock hφ.1 id).setLock _, ?_, fun _ => Iff.rfl, ?_, nofun, ?_⟩
    · rw [happroved]
      exact .claim
    · rw [happroved]
      rintro ⟨⟩
    · intro id' userId
      rw [show ({ db with actions := _ } : Db).revoking t = [] from hφ.2]
      simp [claimed]

theorem revokes_iff {row row' : ResponseAction} (h : SameTarget row row') (userId : Uuid) :
    Revokes row' userId ↔ Revokes row userId := by
  unfold Revokes
  rw [h.1, h.2]

theorem resolved_of_sameTarget {row row' : ResponseAction} (h : SameTarget row row')
    (hrow : Resolved row) : Resolved row' := by
  intro htype
  obtain ⟨userId, hu⟩ := hrow (h.1.symm.trans htype)
  exact ⟨userId, (revokes_iff h userId).mpr hu⟩

theorem sound_write_locked {id : Uuid} {row : ResponseAction} {tb : ActionTable}
    {f : ResponseAction → ResponseAction} {r' : Option ResponseAction} (hinv : Inv db)
    (hφ : (Phase.locked id row).holds t db) (hrow : row.status = .proposed)
    (hmoves : Moves .proposed (f row).status) (hsame : SameTarget row (f row))
    (hi : db.actions.recheckRow t id (fun _ => true) f = some (r', tb)) :
    Inv { db with actions := tb } ∧
      (Phase.changed id row (f row)).holds t { db with actions := tb } := by
  obtain ⟨hl, hc, honly, hr⟩ := hφ
  have hview := Table.view_of_lock hl
  obtain ⟨_, ⟨_, hno, _⟩ | ⟨v, hv, _, _, rfl⟩⟩ := Table.recheckRow_cases hi
  · cases hno row hview
  · obtain rfl : v = row := Option.some.inj (hv.symm.trans hview)
    have hstatus : (f v).status ≠ .succeeded := by
      intro hs
      rw [hs] at hmoves
      cases hmoves
    refine ⟨hinv, Table.setLock_lock_self _ _ _ _, hc, ?_, by rw [hrow]; exact hmoves,
      revokes_iff hsame, by rw [hrow]; rintro ⟨⟩, fun hs => absurd hs hstatus, ?_⟩
    · intro id' row' hl'
      rcases eq_or_ne id' id with rfl | hne
      · rfl
      · exact honly id' row' ((Table.setLock_lock_ne _ _ _ hne).symm.trans hl')
    · intro id' userId
      rw [show ({ db with actions := _ } : Db).revoking t = [] from hr]
      simp [hstatus]

theorem sound_write_owned {id : Uuid} {row : ResponseAction} {tb : ActionTable}
    {f : ResponseAction → ResponseAction} {r' : Option ResponseAction} (hinv : Inv db)
    (hn : db.actions.NoLocks t) (hown : Owned t id row db)
    (hmoves : Moves .running (f row).status) (hsame : SameTarget row (f row))
    (hres : (f row).status = .succeeded → Resolved (f row))
    (hrevoking : ∀ id' userId, (id', userId) ∈ db.revoking t ↔
      id' = id ∧ (f row).status = .succeeded ∧ Revokes (f row) userId)
    (hi : db.actions.recheckRow t id (fun _ => true) f = some (r', tb)) :
    Inv { db with actions := tb } ∧
      (Phase.changed id row (f row)).holds t { db with actions := tb } := by
  obtain ⟨hc, hrun, hclaim⟩ := hown
  have hview := (Table.NoLocks.view hn id).trans hc
  obtain ⟨_, ⟨_, hno, _⟩ | ⟨v, hv, _, _, rfl⟩⟩ := Table.recheckRow_cases hi
  · cases hno row hview
  · obtain rfl : v = row := Option.some.inj (hv.symm.trans hview)
    exact ⟨hinv, Table.setLock_lock_self _ _ _ _, hc, (Table.NoLocks.onlyLock hn id).setLock _,
      by rw [hrun]; exact hmoves, revokes_iff hsame, fun _ => hclaim, hres, hrevoking⟩

theorem sound_write {φ : Phase} {id : Uuid} {f : ResponseAction → ResponseAction} {r : Unit}
    (hinv : Inv db) (hφ : φ.holds t db) (hallowed : φ.allowed (.write id f))
    (h : exec t (.write id f) c db = some (r, db')) :
    Inv db' ∧ (φ.afterWrite f).holds t db' := by
  obtain ⟨r', tb, hi, rfl⟩ := exec_write h
  cases φ with
  | locked id' row =>
      obtain ⟨rfl, hrow, hmoves, hsame⟩ := hallowed
      exact sound_write_locked hinv hφ hrow hmoves hsame hi
  | acted id' row =>
      obtain ⟨rfl, hstatus, hsame⟩ := hallowed
      refine sound_write_owned hinv hφ.1 hφ.2.1 (by rw [hstatus]; exact .succeed) hsame
        (fun _ => resolved_of_sameTarget hsame hφ.2.2.1) ?_ hi
      intro id' userId
      rw [hφ.2.2.2, revokes_iff hsame]
      simp [hstatus]
  | failing id' row =>
      obtain ⟨rfl, hstatus, hsame⟩ := hallowed
      refine sound_write_owned hinv hφ.1 hφ.2.1 (by rw [hstatus]; exact .fail) hsame
        (by rw [hstatus]; rintro ⟨⟩) ?_ hi
      intro id' userId
      rw [hφ.2.2]
      simp [hstatus]
  | idle | inserting | changed | owner => cases hallowed

theorem sound_revokeUser {id userId : Uuid} {row : ResponseAction} {r : Except String Unit}
    (hinv : Inv db) (hφ : (Phase.owner id row).holds t db) (hrow : Revokes row userId)
    (h : exec t (.revokeUser id userId) c db = some (r, db')) :
    Inv db' ∧ ∃ ψ, (Phase.owner id row).next (.revokeUser id userId) r ψ ∧ ψ.holds t db' := by
  obtain ⟨hn, hown, hfresh, hr⟩ := hφ
  have hinv' := inv_effect hinv (.inl ⟨userId, rfl⟩) hown hfresh h
  have hown' := owned_effect (.inl ⟨userId, rfl⟩) hown h
  have hn' : db'.actions.NoLocks t := by
    intro id' row' hl
    rw [(exec_effect (.inl ⟨userId, rfl⟩) h).1] at hl
    exact hn id' row' hl
  refine ⟨hinv', ?_⟩
  cases c with
  | auto =>
      cases h
      refine ⟨.acted id row, rfl, hn', hown', fun _ => ⟨userId, hrow⟩, ?_⟩
      intro id' userId'
      simp only [Function.update_self, hr, List.mem_singleton, Prod.mk.injEq]
      refine and_congr_right fun _ => ⟨?_, ?_⟩
      · rintro rfl
        exact hrow
      · rintro ⟨_, hu⟩
        exact Option.some.inj (hu.symm.trans hrow.2)
  | fails error =>
      cases h
      exact ⟨.failing id row, rfl, hn', hown', hr⟩
  | _ => cases h

theorem sound_executeAwsAction {id : Uuid} {row : ResponseAction} {r : Except String String}
    (hinv : Inv db) (hφ : (Phase.owner id row).holds t db)
    (hrow : row.actionType ≠ .revokeAppSessions)
    (h : exec t (.executeAwsAction id) c db = some (r, db')) :
    Inv db' ∧ ∃ ψ, (Phase.owner id row).next (.executeAwsAction id) r ψ ∧ ψ.holds t db' := by
  obtain ⟨hn, hown, hfresh, hr⟩ := hφ
  have hinv' := inv_effect hinv (.inr rfl) hown hfresh h
  have hown' := owned_effect (.inr rfl) hown h
  have hn' : db'.actions.NoLocks t := by
    intro id' row' hl
    rw [(exec_effect (.inr rfl) h).1] at hl
    exact hn id' row' hl
  refine ⟨hinv', ?_⟩
  cases c with
  | aws requestId =>
      cases h
      refine ⟨.acted id row, rfl, hn', hown', fun htype => absurd htype hrow, ?_⟩
      intro id' userId'
      simp [hr, Revokes, hrow]
  | fails error =>
      cases h
      exact ⟨.failing id row, rfl, hn', hown', hr⟩
  | _ => cases h

theorem sound_commit {φ : Phase} (hinv : Inv db) (hφ : φ.holds t db)
    (hallowed : φ.allowed .commit) :
    Inv (commitTx t db) ∧ φ.afterCommit.holds t (commitTx t db) := by
  have hidle : Phase.idle.holds t (commitTx t db) :=
    ⟨Table.noLocks_commit db.actions t, revoking_commit t db⟩
  rcases hallowed with rfl | rfl | ⟨id, row, row', rfl⟩
  · exact ⟨inv_commit_idle hinv hφ, hidle⟩
  · exact ⟨inv_commit_inserting hinv hφ, hidle⟩
  · refine ⟨inv_commit_changed hinv hφ, ?_⟩
    by_cases hrun : row'.status = .running
    · obtain ⟨hl, hcom, _, hmoves, _, _, _, _⟩ := hφ
      rw [hrun] at hmoves
      have hstarted : row.status.started = false := by
        generalize row.status = a at hmoves
        cases hmoves
        rfl
      have hrow := hinv.row hcom
      have hcount : db.effects.count id = 0 := by
        rcases Nat.eq_zero_or_pos (db.effects.count id) with h0 | hpos
        · exact h0
        · have := hrow.afterClaim hpos
          rw [hstarted] at this
          cases this
      have hdiff : (db.actions.committed id).map (·.status) ≠ some row'.status := by
        rw [hcom, hrun]
        intro he
        have hrun' : row.status = .running := Option.some.inj he
        rw [hrun'] at hstarted
        cases hstarted
      have hclaim : (commitTx t db).claimedBy id = some t :=
        (committedClaim_of_lock hl hdiff).trans (if_pos hrun)
      rw [show Phase.afterCommit (.changed id row row') = .owner id row' from if_pos hrun]
      exact ⟨Table.noLocks_commit db.actions t, ⟨Table.commit_committed_of_lock hl, hrun, hclaim⟩, hcount,
        revoking_commit t db⟩
    · rw [show Phase.afterCommit (.changed id row row') = .idle from if_neg hrun]
      exact hidle

theorem sound_rollback {φ : Phase} (hinv : Inv db) (hφ : φ.holds t db) :
    Inv (rollbackTx t db) ∧ φ.afterRollback.holds t (rollbackTx t db) := by
  have hn := Table.noLocks_rollback db.actions t
  have hr := revoking_rollback t db
  refine ⟨hinv, ?_⟩
  cases φ with
  | owner id row => exact ⟨hn, hφ.2.1, hr⟩
  | acted id row => exact ⟨hn, hφ.2.1, hr⟩
  | failing id row => exact ⟨hn, hφ.2.1, hr⟩
  | idle | inserting | locked | changed => exact ⟨hn, hr⟩

theorem sound_exec {φ : Phase} {q : Stmt} {r : Result q} (hinv : Inv db) (hφ : φ.holds t db)
    (hallowed : φ.allowed q) (h : exec t q c db = some (r, db')) :
    Inv db' ∧ ∃ ψ, φ.next q r ψ ∧ ψ.holds t db' := by
  cases q with
  | now | proposeReads | get | scanApproved | rpush | lpop | userExists =>
      exact sound_quiet rfl hinv hφ h
  | insertAction row =>
      obtain ⟨rfl, hrow⟩ := hallowed
      obtain ⟨hinv', hψ⟩ := sound_insertAction hinv hφ hrow h
      exact ⟨hinv', .inserting, rfl, hψ⟩
  | getForUpdate id =>
      obtain rfl : φ = .idle := hallowed
      exact sound_getForUpdate hinv hφ h
  | claim id now =>
      obtain rfl : φ = .idle := hallowed
      exact sound_claim hinv hφ h
  | write id f =>
      obtain ⟨hinv', hψ⟩ := sound_write hinv hφ hallowed h
      exact ⟨hinv', _, rfl, hψ⟩
  | revokeUser id userId =>
      obtain ⟨row, rfl, hrow⟩ := hallowed
      exact sound_revokeUser hinv hφ hrow h
  | executeAwsAction id =>
      obtain ⟨row, rfl, hrow⟩ := hallowed
      exact sound_executeAwsAction hinv hφ hrow h
  | commit =>
      cases h
      obtain ⟨hinv', hψ⟩ := sound_commit hinv hφ hallowed
      exact ⟨hinv', _, rfl, hψ⟩
  | rollback =>
      cases h
      obtain ⟨hinv', hψ⟩ := sound_rollback hinv hφ
      exact ⟨hinv', _, rfl, hψ⟩
  | raise => exact r.elim

theorem frame_exec {φ : Phase} {q : Stmt} {r : Result q} {u : Nat} (hφ : φ.holds t db)
    (hallowed : φ.allowed q) (hu : u ≠ t) (h : exec t q c db = some (r, db')) :
    Frame u db db' := by
  cases q with
  | now | proposeReads | get | scanApproved | rpush | lpop | userExists =>
      obtain ⟨queue, rfl⟩ := exec_quiet rfl h
      exact frame_queue u db queue
  | insertAction row =>
      obtain ⟨tb, hi, rfl⟩ := exec_insertAction h
      obtain ⟨_, hl, rfl⟩ := Table.insert_cases hi
      exact frame_setLock (Table.not_blocked_iff.mpr (.inl hl)) hu rfl rfl
  | getForUpdate id =>
      obtain ⟨tb, hi, rfl⟩ := exec_getForUpdate h
      rcases Table.getForUpdate_cases hi with ⟨_, _, rfl⟩ | ⟨row, _, _, hb, rfl⟩
      · exact .refl u db
      · exact frame_setLock hb hu rfl rfl
  | claim id now =>
      obtain ⟨tb, hi, rfl⟩ := exec_claim h
      rcases Table.updateByKey_cases hi with ⟨_, rfl⟩ | ⟨row, _, _, hb, _, rfl⟩
      · exact .refl u db
      · exact frame_setLock hb hu rfl rfl
  | write id f =>
      obtain ⟨r', tb, hi, rfl⟩ := exec_write h
      obtain ⟨hb, ⟨_, _, rfl⟩ | ⟨row, _, _, _, rfl⟩⟩ := Table.recheckRow_cases hi
      · exact .refl u db
      · exact frame_setLock hb hu rfl rfl
  | revokeUser id userId =>
      obtain ⟨row, rfl, _⟩ := hallowed
      exact frame_effect (.inl ⟨userId, rfl⟩) hφ.2.1 hu h
  | executeAwsAction id =>
      obtain ⟨row, rfl, _⟩ := hallowed
      exact frame_effect (.inr rfl) hφ.2.1 hu h
  | commit =>
      cases h
      exact frame_commit hφ hallowed hu
  | rollback =>
      cases h
      exact frame_rollback hu
  | raise => exact r.elim

theorem typestate_sound : (typestate settings).Sound fun _ _ _ => True where
  body := body_follows settings
  exec hinv hφ hallowed _ h := sound_exec hinv hφ hallowed h
  frame _ hφ hallowed _ h hu hψ := (frame_exec hφ hallowed hu h).holds hψ
  close {t _ db} hinv _ := ⟨hinv, Table.noLocks_rollback db.actions t, revoking_rollback t db⟩
  closeFrame _ _ hu hψ := (frame_rollback hu).holds hψ

end Soundness

end Exec

end ResponseActions
