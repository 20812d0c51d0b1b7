import AiSoc.Auth.Phases

namespace Auth

open Permissions (Uuid Timestamp)
open RowStore Process

structure Frame (u : Nat) (db db' : Db) : Prop where
  lock : db.sessions.SameLocks db'.sessions u
  kept : ∀ id row, db.sessions.lock id = some (u, row) →
    db'.sessions.committed id = db.sessions.committed id
  grows : ∀ id row, db.sessions.committed id = some row →
    ∃ row', db'.sessions.committed id = some row' ∧ Evolves row row'
  revoking : db'.revoking u = db.revoking u

theorem Frame.heldRevoked {u : Nat} {id : Uuid} {db db' : Db} (h : Frame u db db')
    (hr : HeldRevoked u db id) : HeldRevoked u db' id := by
  obtain ⟨row, hl, hrow⟩ := hr
  exact ⟨row, (h.lock id row).mpr hl, hrow⟩

theorem Frame.saw {u : Nat} {id : Uuid} {row : AuthSession} {db db' : Db} (h : Frame u db db')
    (hs : Saw db u id row) : Saw db' u id row := by
  simpa only [Saw, h.revoking] using hs

theorem active_of_evolves {row row' : AuthSession} (h : Evolves row row')
    (hactive : row'.revokedAt = none) : row.revokedAt = none := by
  by_contra hrevoked
  have hsame := h.2 hrevoked
  rw [hsame] at hactive
  exact hrevoked hactive

theorem Frame.revokingPhase {u : Nat} {target : Target} {pending : List Uuid} {db db' : Db}
    (h : Frame u db db') (hr : Revoking u target pending db) : Revoking u target pending db' where
  held id row' hl := by
    have hl' := (h.lock id row').mp hl
    obtain ⟨row, hc, hnext, hsaw⟩ := hr.held id row' hl'
    exact ⟨row, (h.kept id row' hl').trans hc, hnext, fun hr' ha => h.saw (hsaw hr' ha)⟩
  covered rev hrev id hid := by
    rw [h.revoking] at hrev
    obtain ⟨row, hc, hcov⟩ := hr.covered rev hrev id hid
    obtain ⟨row', hc', hev⟩ := h.grows id row hc
    refine ⟨row', hc', fun hmatch hactive => ?_⟩
    rw [hev.1.matches] at hmatch
    rcases hcov hmatch (active_of_evolves hev hactive) with hheld | ⟨hpending, htarget⟩
    · exact .inl (h.heldRevoked hheld)
    · exact .inr ⟨hpending, by rw [hev.1.matches]; exact htarget⟩
  current := by
    rw [h.revoking]
    exact hr.current

theorem Frame.holds {u : Nat} {ψ : Phase} {db db' : Db} (h : Frame u db db')
    (hψ : ψ.holds u db) : ψ.holds u db' := by
  cases ψ with
  | idle => exact ⟨h.lock.noLocks hψ.1, h.revoking.trans hψ.2⟩
  | holding id row =>
      obtain ⟨hl, hc, ho, hr⟩ := hψ
      exact ⟨(h.lock id row).mpr hl, (h.kept id row hl).trans hc, h.lock.onlyLock ho,
        h.revoking.trans hr⟩
  | rotated row replacementId =>
      obtain ⟨⟨now, hl⟩, hc, ha, ho, hr⟩ := hψ
      exact ⟨⟨now, (h.lock _ _).mpr hl⟩, (h.kept _ _ hl).trans hc, ha, h.lock.onlyLock ho,
        h.revoking.trans hr⟩
  | inserted =>
      refine ⟨fun id row next hl hnext => ?_, h.revoking.trans hψ.2⟩
      obtain ⟨row', horigin, hc | hl'⟩ := hψ.1 id row next ((h.lock id row).mp hl) hnext
      · obtain ⟨row'', hc', hev⟩ := h.grows next row' hc
        exact ⟨row'', horigin.trans hev.1, .inl hc'⟩
      · exact ⟨row', horigin, .inr ((h.lock next row').mpr hl')⟩
  | revoking target pending => exact h.revokingPhase hψ

section RowLocks

variable {t : Nat} {db : Db}

theorem frame_sessions {u : Nat} {db db' : Db} (hs : db'.sessions = db.sessions)
    (hr : db'.revoking u = db.revoking u) : Frame u db db' where
  lock id row := by rw [hs]
  kept id row _ := by rw [hs]
  grows id row hc := ⟨row, by rw [hs]; exact hc, .refl row⟩
  revoking := hr

theorem frame_setLock {id : Uuid} {row : AuthSession} {tb : Table Uuid AuthSession} {u : Nat}
    (hb : ¬ db.sessions.blocked t id) (hu : u ≠ t) (hc : tb.committed = db.sessions.committed)
    (hl : tb.lock = (db.sessions.setLock t id row).lock) :
    Frame u db { db with sessions := tb } where
  lock id' row' := by
    change tb.lock id' = some (u, row') ↔ _
    rw [hl]
    exact Table.setLock_lock_of_other hb hu
  kept _ _ _ := congrFun hc _
  grows id' row' hrow := ⟨row', (congrFun hc _).trans hrow, .refl row'⟩
  revoking := rfl

theorem inv_setLock {id : Uuid} {row : AuthSession} {tb : Table Uuid AuthSession}
    (hinv : Inv db) (hc : tb.committed = db.sessions.committed)
    (hl : tb.lock = (db.sessions.setLock t id row).lock)
    (hk : id ∈ tb.keys ∧ ∀ id' ∈ db.sessions.keys, id' ∈ tb.keys) (hid : row.id = id)
    (hev : ∀ old, db.sessions.committed id = some old → Evolves old row) :
    Inv { db with sessions := tb } := by
  have hversion : ∀ id' row', tb.Version id' row' →
      id' = id ∧ row' = row ∨ db.sessions.Version id' row' := by
    intro id' row' hv
    refine Table.version_of_setLock (t := t) ?_
    simpa only [Table.Version, hc, hl, Table.setLock_committed] using hv
  refine ⟨hinv.usersId, ?_, ?_, ?_, ?_⟩
  · intro id' row' hv
    rcases hversion id' row' hv with ⟨rfl, rfl⟩ | hv
    · exact hid
    · exact hinv.sessionsId id' row' hv
  · intro id' row' hv
    rcases hversion id' row' hv with ⟨rfl, _⟩ | hv
    · exact hk.1
    · exact hk.2 id' (hinv.known id' row' hv)
  · intro id' u old row' hold hlock
    have hold' : db.sessions.committed id' = some old := (congrFun hc _).symm.trans hold
    have hlock' : (db.sessions.setLock t id row).lock id' = some (u, row') :=
      (congrFun hl _).symm.trans hlock
    rcases eq_or_ne id' id with rfl | hne
    · rw [Table.setLock_lock_self] at hlock'
      cases hlock'
      exact hev old hold'
    · rw [Table.setLock_lock_ne _ _ _ hne] at hlock'
      exact hinv.evolves id' u old row' hold' hlock'
  · intro id' old next hold hnext
    have hold' : db.sessions.committed id' = some old := (congrFun hc _).symm.trans hold
    obtain ⟨row', hrow', horigin⟩ := hinv.replaced id' old next hold' hnext
    exact ⟨row', (congrFun hc _).trans hrow', horigin⟩

theorem evolves_view {id : Uuid} {row row' : AuthSession} (hinv : Inv db)
    (hc : db.sessions.committed id = some row) (hv : db.sessions.view t id = some row') :
    Evolves row row' := by
  rcases Table.view_cases db.sessions t id with ⟨w, hl, hw⟩ | ⟨_, hw⟩
  · obtain rfl : w = row' := Option.some.inj (hw.symm.trans hv)
    exact hinv.evolves id t row w hc hl
  · obtain rfl : row = row' := Option.some.inj (hc.symm.trans (hw.symm.trans hv))
    exact .refl row

end RowLocks

section Exec

variable {t : Nat} {c : Choice} {db db' : Db}

def Stmt.onSessions : Stmt → Bool
  | .getSessionForUpdate _ | .insertSession _ | .rotateSession _ _ _ => true
  | .beginRevoke _ | .revokeRow _ _ _ | .commit | .rollback => true
  | _ => false

theorem exec_elsewhere {q : Stmt} {r : Result q} (hq : q.onSessions = false)
    (h : exec t q c db = some (r, db')) :
    db'.sessions = db.sessions ∧ db'.revoking = db.revoking := by
  cases q with
  | now | tokenUrlsafe | limited =>
      cases c with
      | time | text | flag | auto | uuids => cases h <;> exact ⟨rfl, rfl⟩
  | uuid4 | getUser | getUserByEmail | activeAdminCount => cases h; exact ⟨rfl, rfl⟩
  | insertUser row =>
      simp only [exec] at h
      split at h
      · cases h
      · obtain ⟨tb, _, ho⟩ := Option.map_eq_some_iff.mp h
        cases ho
        exact ⟨rfl, rfl⟩
  | writeUser id f =>
      obtain ⟨out, _, ho⟩ := Option.map_eq_some_iff.mp h
      cases ho
      exact ⟨rfl, rfl⟩
  | _ => cases hq

theorem exec_users {q : Stmt} {r : Result q} {φ : Phase} (hallowed : φ.allowed q)
    (hid : db.users.All fun id user => user.id = id) (h : exec t q c db = some (r, db')) :
    db'.users.All fun id user => user.id = id := by
  cases q with
  | now | tokenUrlsafe | limited =>
      cases c with
      | time | text | flag | auto | uuids => cases h <;> exact hid
  | uuid4 | getUser | getUserByEmail | activeAdminCount => cases h; exact hid
  | insertUser row =>
      simp only [exec] at h
      split at h
      · cases h
      · obtain ⟨tb, hi, ho⟩ := Option.map_eq_some_iff.mp h
        cases ho
        exact hid.insert hi rfl
  | writeUser id f =>
      obtain ⟨out, hi, ho⟩ := Option.map_eq_some_iff.mp h
      cases ho
      exact hid.recheckRow hi fun user hu => (hallowed user).trans hu
  | getSessionForUpdate | insertSession | rotateSession | revokeRow =>
      obtain ⟨out, _, ho⟩ := Option.map_eq_some_iff.mp h
      cases ho
      exact hid
  | beginRevoke =>
      cases c with
      | uuids ids =>
          simp only [exec] at h
          split at h
          · cases h; exact hid
          · cases h
      | _ => cases h
  | commit => cases h; exact hid.commit t
  | rollback => cases h; exact hid.rollback t

theorem exec_getSessionForUpdate {id : Uuid} {r : Option AuthSession}
    (h : exec t (.getSessionForUpdate id) c db = some (r, db')) :
    ∃ tb, db.sessions.getForUpdate t id = some (r, tb) ∧ db' = { db with sessions := tb } := by
  obtain ⟨⟨r', tb⟩, hi, ho⟩ := Option.map_eq_some_iff.mp h
  cases ho
  exact ⟨tb, hi, rfl⟩

theorem exec_insertSession {row : AuthSession} {r : Unit}
    (h : exec t (.insertSession row) c db = some (r, db')) :
    ∃ tb, db.sessions.insert t row.id row = some tb ∧ db' = { db with sessions := tb } := by
  obtain ⟨tb, hi, ho⟩ := Option.map_eq_some_iff.mp h
  cases ho
  exact ⟨tb, hi, rfl⟩

theorem exec_rotateSession {id replacementId : Uuid} {now : Timestamp} {r : Unit}
    (h : exec t (.rotateSession id now replacementId) c db = some (r, db')) :
    ∃ r' tb, db.sessions.recheckRow t id (fun _ => true) (rotated now replacementId) =
      some (r', tb) ∧ db' = { db with sessions := tb } := by
  obtain ⟨⟨r', tb⟩, hi, ho⟩ := Option.map_eq_some_iff.mp h
  cases ho
  exact ⟨r', tb, hi, rfl⟩

theorem exec_beginRevoke {target : Target} {ids : List Uuid}
    (h : exec t (.beginRevoke target) c db = some (ids, db')) :
    ids.Perm (db.sessions.matching t target.revocable) ∧ db'.users = db.users ∧
      db'.sessions = db.sessions ∧ db'.revoking t = ⟨target, sessionIds db⟩ :: db.revoking t ∧
      ∀ u, u ≠ t → db'.revoking u = db.revoking u := by
  cases c with
  | uuids ids' =>
      simp only [exec] at h
      split at h
      · cases h
        exact ⟨‹_›, rfl, rfl, Function.update_self .., fun u hu => Function.update_of_ne hu ..⟩
      · cases h
  | _ => cases h

theorem exec_revokeRow {target : Target} {id : Uuid} {now : Timestamp} {r : Unit}
    (h : exec t (.revokeRow target id now) c db = some (r, db')) :
    ∃ r' tb, db.sessions.recheckRow t id target.revocable (revoked now) = some (r', tb) ∧
      db' = { db with sessions := tb } := by
  obtain ⟨⟨r', tb⟩, hi, ho⟩ := Option.map_eq_some_iff.mp h
  cases ho
  exact ⟨r', tb, hi, rfl⟩

theorem idle_rollback (t : Nat) (db : Db) : Phase.idle.holds t (rollbackTx t db) :=
  ⟨Table.noLocks_rollback db.sessions t, by simp [rollbackTx]⟩

theorem idle_commit (t : Nat) (db : Db) : Phase.idle.holds t (commitTx t db) :=
  ⟨Table.noLocks_commit db.sessions t, by simp [commitTx]⟩

theorem inv_rollback (hinv : Inv db) (t : Nat) : Inv (rollbackTx t db) where
  usersId := hinv.usersId.rollback t
  sessionsId := hinv.sessionsId.rollback t
  known id row hv := hinv.known id row (Table.version_of_rollback hv)
  evolves id u row row' hc hl :=
    hinv.evolves id u row row' hc ((Table.rollback_lock db.sessions t u id row').mp hl).1
  replaced := hinv.replaced

theorem frame_rollback {u : Nat} (hu : u ≠ t) : Frame u db (rollbackTx t db) where
  lock := Table.sameLocks_rollback db.sessions hu
  kept _ _ _ := rfl
  grows _ row hc := ⟨row, hc, .refl row⟩
  revoking := by simp [rollbackTx, hu]

theorem grows_commit (hinv : Inv db) {id : Uuid} {row : AuthSession}
    (hc : db.sessions.committed id = some row) :
    ∃ row', (commitTx t db).sessions.committed id = some row' ∧ Evolves row row' := by
  rcases Table.view_cases db.sessions t id with ⟨w, hl, hw⟩ | ⟨_, hw⟩
  · exact ⟨w, hw, hinv.evolves id t row w hc hl⟩
  · exact ⟨row, hw.trans hc, .refl row⟩

theorem frame_commit {u : Nat} (hinv : Inv db) (hu : u ≠ t) : Frame u db (commitTx t db) where
  lock := Table.sameLocks_commit db.sessions hu
  kept id row hl := by
    refine Table.commit_committed_of_not_held fun row' hrow' => ?_
    rw [hl] at hrow'
    cases hrow'
    exact hu rfl
  grows _ _ hc := grows_commit hinv hc
  revoking := by simp [commitTx, hu]

theorem settled_facts {φ : Phase} (hφ : φ.holds t db) (hsettled : φ.settled) :
    (∀ id row', db.sessions.lock id = some (t, row') →
      ∃ row, db.sessions.committed id = some row ∧ row'.replacedById = row.replacedById ∧
        (row'.revokedAt ≠ none → row.revokedAt = none → Saw db t id row)) ∧
      ∀ rev ∈ db.revoking t, ∀ id ∈ rev.seen, ∃ row, db.sessions.committed id = some row ∧
        (rev.target.matches row = true → row.revokedAt = none → HeldRevoked t db id) := by
  cases φ with
  | idle =>
      refine ⟨fun id row' hl => absurd hl (hφ.1 id row'), fun rev hrev => ?_⟩
      rw [hφ.2] at hrev
      cases hrev
  | holding id row =>
      obtain ⟨hl, hc, ho, hr⟩ := hφ
      refine ⟨fun id' row' hl' => ?_, fun rev hrev => ?_⟩
      · obtain rfl := ho id' row' hl'
        rw [hl] at hl'
        cases hl'
        exact ⟨row, hc, rfl, fun hrevoked hactive => absurd hactive hrevoked⟩
      · rw [hr] at hrev
        cases hrev
  | revoking target pending =>
      obtain rfl : pending = [] := hsettled
      refine ⟨hφ.held, fun rev hrev id hid => ?_⟩
      obtain ⟨row, hc, hcov⟩ := hφ.covered rev hrev id hid
      refine ⟨row, hc, fun hmatch hactive => ?_⟩
      rcases hcov hmatch hactive with hheld | ⟨hpending, _⟩
      · exact hheld
      · cases hpending
  | rotated | inserted => cases hsettled

theorem linked_of_allowed {φ : Phase} (hinv : Inv db) (hφ : φ.holds t db)
    (hallowed : φ.allowed .commit) {id next : Uuid} {row : AuthSession}
    (hl : db.sessions.lock id = some (t, row)) (hnext : row.replacedById = some next) :
    ∃ row', SameOrigin row row' ∧
      (db.sessions.committed next = some row' ∨ db.sessions.lock next = some (t, row')) := by
  rcases hallowed with hsettled | rfl
  · obtain ⟨old, hc, hreplaced, _⟩ := (settled_facts hφ hsettled).1 id row hl
    obtain ⟨row', hc', horigin⟩ := hinv.replaced id old next hc (hreplaced.symm.trans hnext)
    have hev := hinv.evolves id t old row hc hl
    exact ⟨row', hev.1.symm.trans horigin, .inl hc'⟩
  · exact hφ.1 id row next hl hnext

theorem inv_commit {φ : Phase} (hinv : Inv db) (hφ : φ.holds t db)
    (hallowed : φ.allowed .commit) : Inv (commitTx t db) := by
  refine ⟨hinv.usersId.commit t, hinv.sessionsId.commit t,
    fun id row hv => hinv.known id row (Table.version_of_commit hv), ?_, ?_⟩
  · intro id u row row' hc hl
    obtain ⟨hl', hu⟩ := (Table.commit_lock db.sessions t u id row').mp hl
    have hnot : ∀ w, db.sessions.lock id ≠ some (t, w) := by
      intro w hw
      rw [hl'] at hw
      cases hw
      exact hu rfl
    have hc' := (Table.commit_committed_of_not_held hnot).symm.trans hc
    exact hinv.evolves id u row row' hc' hl'
  · intro id row next hc hnext
    have hgrow : ∀ row', SameOrigin row row' → db.sessions.committed next = some row' →
        ∃ row'', (commitTx t db).sessions.committed next = some row'' ∧ SameOrigin row row'' := by
      intro row' horigin hrow'
      obtain ⟨row'', hc'', hev⟩ := grows_commit hinv hrow'
      exact ⟨row'', hc'', horigin.trans hev.1⟩
    rcases Table.view_cases db.sessions t id with ⟨w, hl, hw⟩ | ⟨_, hw⟩
    · obtain rfl : w = row := Option.some.inj (hw.symm.trans hc)
      obtain ⟨row', horigin, hrow' | hl'⟩ := linked_of_allowed hinv hφ hallowed hl hnext
      · exact hgrow row' horigin hrow'
      · exact ⟨row', Table.commit_committed_of_lock hl', horigin⟩
    · obtain ⟨row', hrow', horigin⟩ := hinv.replaced id row next (hw.symm.trans hc) hnext
      exact hgrow row' horigin hrow'

section Statements

theorem sound_getSessionForUpdate {id : Uuid} {r : Option AuthSession} (hinv : Inv db)
    (hφ : Phase.idle.holds t db) (h : exec t (.getSessionForUpdate id) c db = some (r, db')) :
    Inv db' ∧ ∃ ψ, Phase.idle.next (.getSessionForUpdate id) r ψ ∧ ψ.holds t db' := by
  obtain ⟨tb, hi, rfl⟩ := exec_getSessionForUpdate h
  rcases Table.getForUpdate_cases hi with ⟨rfl, _, rfl⟩ | ⟨row, rfl, hview, _, rfl⟩
  · exact ⟨hinv, .idle, rfl, hφ⟩
  · have hc : db.sessions.committed id = some row := (Table.NoLocks.view hφ.1 id).symm.trans hview
    have hid : row.id = id := hinv.sessionsId id row (.inl hc)
    have honly : db.sessions.OnlyLock t id := Table.NoLocks.onlyLock hφ.1 id
    refine ⟨?_, .holding id row, ⟨rfl, hid⟩, Table.setLock_lock_self _ _ _ _, hc,
      honly.setLock _, hφ.2⟩
    refine inv_setLock hinv rfl rfl ⟨hinv.known id row (.inl hc), fun _ h => h⟩ hid ?_
    intro old hold
    obtain rfl : old = row := Option.some.inj (hold.symm.trans hc)
    exact .refl old

theorem sound_insertSession {φ : Phase} {row : AuthSession} {r : Unit} (hinv : Inv db)
    (hφ : φ.holds t db) (hallowed : φ.allowed (.insertSession row))
    (h : exec t (.insertSession row) c db = some (r, db')) :
    Inv db' ∧ Phase.inserted.holds t db' := by
  obtain ⟨tb, hi, rfl⟩ := exec_insertSession h
  obtain ⟨hnone, _, rfl⟩ := Table.insert_cases hi
  obtain ⟨hnew, hφ'⟩ := hallowed
  refine ⟨?_, ?_⟩
  · refine inv_setLock hinv rfl rfl ⟨by simp, fun id hid => by simp [hid]⟩ rfl ?_
    intro old hold
    rw [hnone] at hold
    cases hold
  · have hrevoking : db.revoking t = [] := by
      rcases hφ' with rfl | ⟨old, rfl, _⟩
      · exact hφ.2
      · exact hφ.2.2.2.2
    refine ⟨fun id row' next hl hnext => ?_, hrevoking⟩
    change (db.sessions.setLock t row.id row).lock id = some (t, row') at hl
    rcases eq_or_ne id row.id with rfl | hne
    · rw [Table.setLock_lock_self] at hl
      cases hl
      rw [hnew] at hnext
      cases hnext
    · rw [Table.setLock_lock_ne _ _ _ hne] at hl
      rcases hφ' with rfl | ⟨old, rfl, horigin⟩
      · exact absurd hl (hφ.1 id row')
      · obtain ⟨⟨now, hlock⟩, _, _, honly, _⟩ := hφ
        obtain rfl := honly id row' hl
        obtain rfl : rotated now row.id old = row' := by
          rw [hlock] at hl
          cases hl
          rfl
        obtain rfl : row.id = next := Option.some.inj hnext
        exact ⟨row, horigin, .inr (Table.setLock_lock_self _ _ _ _)⟩

theorem sound_rotateSession {id replacementId : Uuid} {row : AuthSession} {now : Timestamp}
    {r : Unit} (hinv : Inv db) (hφ : (Phase.holding id row).holds t db)
    (hactive : row.revokedAt = none)
    (h : exec t (.rotateSession id now replacementId) c db = some (r, db')) :
    Inv db' ∧ (Phase.rotated row replacementId).holds t db' := by
  obtain ⟨r', tb, hi, rfl⟩ := exec_rotateSession h
  obtain ⟨hl, hc, honly, hr⟩ := hφ
  obtain rfl : row.id = id := hinv.sessionsId id row (.inl hc)
  have hview := Table.view_of_lock hl
  obtain ⟨_, ⟨_, hno, _⟩ | ⟨v, hv, _, _, rfl⟩⟩ := Table.recheckRow_cases hi
  · cases hno row hview
  · obtain rfl : v = row := Option.some.inj (hv.symm.trans hview)
    refine ⟨?_, ⟨now, Table.setLock_lock_self _ _ _ _⟩, hc, hactive, honly.setLock _, hr⟩
    refine inv_setLock hinv rfl rfl ⟨hinv.known v.id v (.inl hc), fun _ h => h⟩ rfl ?_
    intro old hold
    obtain rfl : old = v := Option.some.inj (hold.symm.trans hc)
    exact ⟨.refl _, fun hrevoked => absurd hactive hrevoked⟩

theorem mem_sessionIds {id : Uuid} {row : AuthSession} (hinv : Inv db)
    (hc : db.sessions.committed id = some row) : id ∈ sessionIds db :=
  List.mem_filter.mpr ⟨hinv.known id row (.inl hc), by simp [hc]⟩

theorem committed_of_mem {id : Uuid} (hid : id ∈ sessionIds db) :
    ∃ row, db.sessions.committed id = some row :=
  Option.isSome_iff_exists.mp (List.mem_filter.mp hid).2

theorem sound_beginRevoke {φ : Phase} {target : Target} {ids : List Uuid} (hinv : Inv db)
    (hφ : φ.holds t db) (hsettled : φ.settled)
    (h : exec t (.beginRevoke target) c db = some (ids, db')) :
    Inv db' ∧ (Phase.revoking target ids).holds t db' := by
  obtain ⟨hperm, hu, hs, hrevoking, _⟩ := exec_beginRevoke h
  obtain ⟨hheld, hcovered⟩ := settled_facts hφ hsettled
  have hinv' : Inv db' := by
    refine ⟨?_, ?_, ?_, ?_, ?_⟩ <;> simp only [hu, hs]
    · exact hinv.usersId
    · exact hinv.sessionsId
    · exact hinv.known
    · exact hinv.evolves
    · exact hinv.replaced
  refine ⟨hinv', ?_⟩
  simp only [Phase.holds]
  refine ⟨?_, ?_, ?_⟩ <;> simp only [HeldRevoked, Saw, hs, hrevoking]
  · intro id row' hl
    obtain ⟨row, hc, hnext, hsaw⟩ := hheld id row' hl
    refine ⟨row, hc, hnext, fun hr ha => ?_⟩
    obtain ⟨rev, hrev, hmatch⟩ := hsaw hr ha
    exact ⟨rev, List.mem_cons_of_mem _ hrev, hmatch⟩
  · intro rev hrev id hid
    rcases List.mem_cons.mp hrev with rfl | hrev
    · obtain ⟨row, hc⟩ := committed_of_mem hid
      refine ⟨row, hc, fun hmatch hactive => ?_⟩
      rcases Table.view_cases db.sessions t id with ⟨row', hl, hv⟩ | ⟨_, hv⟩
      · cases hrow' : row'.revokedAt with
        | some now => exact .inl ⟨row', hl, by simp [hrow']⟩
        | none =>
            have horigin := (hinv.evolves id t row row' hc hl).1
            refine .inr ⟨hperm.mem_iff.mpr ?_, hmatch⟩
            refine Table.mem_matching (hinv.known id row (.inl hc)) hv ?_
            simpa [Target.revocable, horigin.matches, hrow'] using hmatch
      · refine .inr ⟨hperm.mem_iff.mpr ?_, hmatch⟩
        refine Table.mem_matching (hinv.known id row (.inl hc)) (hv.trans hc) ?_
        simpa [Target.revocable, hactive] using hmatch
    · obtain ⟨row, hc, hcov⟩ := hcovered rev hrev id hid
      exact ⟨row, hc, fun hmatch hactive => .inl (hcov hmatch hactive)⟩
  · refine ⟨⟨target, sessionIds db⟩, List.mem_cons_self, rfl, ?_⟩
    intro id hid
    obtain ⟨_, hsome⟩ := List.mem_filter.mp (hperm.mem_iff.mp hid)
    rcases Table.view_cases db.sessions t id with ⟨row', hl, _⟩ | ⟨_, hv⟩
    · obtain ⟨row, hc, _⟩ := hheld id row' hl
      exact mem_sessionIds hinv hc
    · cases hc : db.sessions.committed id with
      | none => simp [hv, hc] at hsome
      | some row => exact mem_sessionIds hinv hc

theorem heldRevoked_of_skipped {target : Target} {id : Uuid} {row : AuthSession} (hinv : Inv db)
    (hno : ∀ v, db.sessions.view t id = some v → target.revocable v = false)
    (hc : db.sessions.committed id = some row) (hmatch : target.matches row = true)
    (hactive : row.revokedAt = none) : HeldRevoked t db id := by
  rcases Table.view_cases db.sessions t id with ⟨row', hl, hv⟩ | ⟨_, hv⟩
  · refine ⟨row', hl, fun hactive' => ?_⟩
    have horigin := (hinv.evolves id t row row' hc hl).1
    have hnot := hno row' hv
    simp [Target.revocable, horigin.matches, hmatch, hactive'] at hnot
  · have hnot := hno row (hv.trans hc)
    simp [Target.revocable, hmatch, hactive] at hnot

theorem sound_revokeRow {target : Target} {id : Uuid} {ids : List Uuid} {now : Timestamp}
    {r : Unit} (hinv : Inv db) (hφ : (Phase.revoking target (id :: ids)).holds t db)
    (h : exec t (.revokeRow target id now) c db = some (r, db')) :
    Inv db' ∧ (Phase.revoking target ids).holds t db' := by
  obtain ⟨r', tb, hi, rfl⟩ := exec_revokeRow h
  obtain ⟨rev, hrev, htarget, hpending⟩ := hφ.current
  have hcurrent : ∃ rev ∈ db.revoking t, rev.target = target ∧ ∀ id ∈ ids, id ∈ rev.seen :=
    ⟨rev, hrev, htarget, fun id' hid' => hpending id' (List.mem_cons_of_mem _ hid')⟩
  obtain ⟨_, ⟨_, hno, rfl⟩ | ⟨v, hv, hrevocable, _, rfl⟩⟩ := Table.recheckRow_cases hi
  · refine ⟨hinv, hφ.held, fun rev' hrev' id' hid' => ?_, hcurrent⟩
    obtain ⟨row, hc, hcov⟩ := hφ.covered rev' hrev' id' hid'
    refine ⟨row, hc, fun hmatch hactive => ?_⟩
    rcases hcov hmatch hactive with hheld | ⟨hmem, hmatch'⟩
    · exact .inl hheld
    · rcases List.mem_cons.mp hmem with rfl | hmem
      · exact .inl (heldRevoked_of_skipped hinv hno hc hmatch' hactive)
      · exact .inr ⟨hmem, hmatch'⟩
  · obtain ⟨hmatchv, hactivev⟩ : target.matches v = true ∧ v.revokedAt = none := by
      simpa [Target.revocable] using hrevocable
    obtain ⟨row, hc, _⟩ := hφ.covered rev hrev id (hpending id List.mem_cons_self)
    have hev := evolves_view hinv hc hv
    have hself : HeldRevoked t { db with sessions := db.sessions.setLock t id (revoked now v) } id :=
      ⟨revoked now v, Table.setLock_lock_self _ _ _ _, by simp [revoked]⟩
    refine ⟨?_, fun id' row' hl => ?_, fun rev' hrev' id' hid' => ?_, hcurrent⟩
    · refine inv_setLock hinv rfl rfl ⟨hinv.known id row (.inl hc), fun _ h => h⟩
        (hinv.sessionsId id v (Table.version_of_view hv)) ?_
      intro old hold
      obtain rfl : old = row := Option.some.inj (hold.symm.trans hc)
      exact evolves_revoked hev hactivev
    · change (db.sessions.setLock t id (revoked now v)).lock id' = some (t, row') at hl
      rcases eq_or_ne id' id with rfl | hne
      · rw [Table.setLock_lock_self] at hl
        cases hl
        have hreplaced : v.replacedById = row.replacedById := by
          rcases Table.view_cases db.sessions t id' with ⟨w, hlw, hw⟩ | ⟨_, hw⟩
          · obtain rfl : w = v := Option.some.inj (hw.symm.trans hv)
            obtain ⟨old, hold, hnext, _⟩ := hφ.held id' w hlw
            obtain rfl : old = row := Option.some.inj (hold.symm.trans hc)
            exact hnext
          · obtain rfl : row = v := Option.some.inj (hc.symm.trans (hw.symm.trans hv))
            rfl
        refine ⟨row, hc, hreplaced, fun _ _ => ⟨rev, hrev, ?_, hpending id' List.mem_cons_self⟩⟩
        rw [htarget, ← hev.1.matches]
        exact hmatchv
      · rw [Table.setLock_lock_ne _ _ _ hne] at hl
        exact hφ.held id' row' hl
    · obtain ⟨row', hc', hcov⟩ := hφ.covered rev' hrev' id' hid'
      refine ⟨row', hc', fun hmatch hactive => ?_⟩
      rcases eq_or_ne id' id with rfl | hne
      · exact .inl hself
      · rcases hcov hmatch hactive with ⟨w, hl, hw⟩ | ⟨hmem, hmatch'⟩
        · exact .inl ⟨w, (Table.setLock_lock_ne _ _ _ hne).trans hl, hw⟩
        · exact .inr ⟨(List.mem_cons.mp hmem).resolve_left hne, hmatch'⟩

theorem sound_elsewhere {φ : Phase} {q : Stmt} {r : Result q} (hinv : Inv db)
    (hφ : φ.holds t db) (hallowed : φ.allowed q) (hq : q.onSessions = false)
    (h : exec t q c db = some (r, db')) :
    Inv db' ∧ ∃ ψ, φ.next q r ψ ∧ ψ.holds t db' := by
  obtain ⟨hs, hr⟩ := exec_elsewhere hq h
  have hholds : φ.holds t db' := (frame_sessions hs (congrFun hr t)).holds hφ
  have hinv' : Inv db' := by
    refine ⟨exec_users hallowed hinv.usersId h, ?_, ?_, ?_, ?_⟩ <;> rw [hs]
    · exact hinv.sessionsId
    · exact hinv.known
    · exact hinv.evolves
    · exact hinv.replaced
  refine ⟨hinv', φ, ?_, hholds⟩
  cases q with
  | getUser id =>
      cases h
      cases hview : db.users.view t id with
      | none => rfl
      | some user => exact ⟨rfl, hinv.usersId id user (Table.version_of_view hview)⟩
  | now | uuid4 | tokenUrlsafe | limited | getUserByEmail | activeAdminCount | insertUser
  | writeUser => rfl
  | _ => cases hq

theorem sound_exec {φ : Phase} {q : Stmt} {r : Result q} (hinv : Inv db) (hφ : φ.holds t db)
    (hallowed : φ.allowed q) (h : exec t q c db = some (r, db')) :
    Inv db' ∧ ∃ ψ, φ.next q r ψ ∧ ψ.holds t db' := by
  cases q with
  | now | uuid4 | tokenUrlsafe | limited | getUser | getUserByEmail | activeAdminCount
  | insertUser | writeUser => exact sound_elsewhere hinv hφ hallowed rfl h
  | getSessionForUpdate id =>
      obtain rfl : φ = .idle := hallowed
      exact sound_getSessionForUpdate hinv hφ h
  | insertSession row =>
      obtain ⟨hinv', hψ⟩ := sound_insertSession hinv hφ hallowed h
      exact ⟨hinv', .inserted, rfl, hψ⟩
  | rotateSession id now replacementId =>
      obtain ⟨row, rfl, hactive⟩ := hallowed
      obtain ⟨hinv', hψ⟩ := sound_rotateSession hinv hφ hactive h
      exact ⟨hinv', _, rfl, hψ⟩
  | beginRevoke target =>
      obtain ⟨hinv', hψ⟩ := sound_beginRevoke hinv hφ hallowed h
      exact ⟨hinv', _, rfl, hψ⟩
  | revokeRow target id now =>
      obtain ⟨ids, rfl⟩ := hallowed
      obtain ⟨hinv', hψ⟩ := sound_revokeRow hinv hφ h
      exact ⟨hinv', _, rfl, hψ⟩
  | commit =>
      cases h
      exact ⟨inv_commit hinv hφ hallowed, .idle, rfl, idle_commit t db⟩
  | rollback =>
      cases h
      exact ⟨inv_rollback hinv t, .idle, rfl, idle_rollback t db⟩

theorem frame_exec {q : Stmt} {r : Result q} {u : Nat} (hinv : Inv db) (hu : u ≠ t)
    (h : exec t q c db = some (r, db')) : Frame u db db' := by
  cases q with
  | now | uuid4 | tokenUrlsafe | limited | getUser | getUserByEmail | activeAdminCount
  | insertUser | writeUser =>
      obtain ⟨hs, hr⟩ := exec_elsewhere rfl h
      exact frame_sessions hs (congrFun hr u)
  | getSessionForUpdate id =>
      obtain ⟨tb, hi, rfl⟩ := exec_getSessionForUpdate h
      rcases Table.getForUpdate_cases hi with ⟨_, _, rfl⟩ | ⟨row, _, _, hb, rfl⟩
      · exact frame_sessions rfl rfl
      · exact frame_setLock hb hu rfl rfl
  | insertSession row =>
      obtain ⟨tb, hi, rfl⟩ := exec_insertSession h
      obtain ⟨_, hl, rfl⟩ := Table.insert_cases hi
      exact frame_setLock (Table.not_blocked_iff.mpr (.inl hl)) hu rfl rfl
  | rotateSession id now replacementId =>
      obtain ⟨r', tb, hi, rfl⟩ := exec_rotateSession h
      obtain ⟨hb, ⟨_, _, rfl⟩ | ⟨row, _, _, _, rfl⟩⟩ := Table.recheckRow_cases hi
      · exact frame_sessions rfl rfl
      · exact frame_setLock hb hu rfl rfl
  | beginRevoke target =>
      obtain ⟨_, _, hs, _, hr⟩ := exec_beginRevoke h
      exact frame_sessions hs (hr u hu)
  | revokeRow target id now =>
      obtain ⟨r', tb, hi, rfl⟩ := exec_revokeRow h
      obtain ⟨hb, ⟨_, _, rfl⟩ | ⟨row, _, _, _, rfl⟩⟩ := Table.recheckRow_cases hi
      · exact frame_sessions rfl rfl
      · exact frame_setLock hb hu rfl rfl
  | commit =>
      cases h
      exact frame_commit hinv hu
  | rollback =>
      cases h
      exact frame_rollback hu

theorem typestate_sound {env : Env} : (typestate env).Sound fun _ _ _ => True where
  body c := (body_leads env c).mono fun _ _ _ => trivial
  exec hinv hφ hallowed _ h := sound_exec hinv hφ hallowed h
  frame hinv _ _ _ h hu hψ := (frame_exec hinv hu h).holds hψ
  close {t _ db} hinv _ := ⟨inv_rollback hinv t, idle_rollback t db⟩
  closeFrame _ _ hu hψ := (frame_rollback hu).holds hψ

end Statements

end Exec

end Auth
