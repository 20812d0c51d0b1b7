import AiSoc.Auth.Families
import AiSoc.Auth.Revocation

namespace Auth

open Permissions (Uuid Timestamp)
open RowStore Process
open Transition (anyStep)

namespace Families

section Invariant

def Begins (db : Db) (id : Uuid) (row : AuthSession) : Prop :=
  ∀ id' row', db.sessions.Version id' row' → row'.familyId = row.familyId → id' = id

def Replaces (db : Db) (t : Nat) (row : AuthSession) : Prop :=
  ∃ id old held, db.sessions.committed id = some old ∧ old.revokedAt = none ∧
    old.familyId = row.familyId ∧ db.sessions.lock id = some (t, held) ∧ held.revokedAt ≠ none

structure FamilyInv (db : Db) : Prop where
  bounded : ∀ id row, db.sessions.Version id row → row.familyId < db.nextId
  sameUser : ∀ id id' row row', db.sessions.Version id row → db.sessions.Version id' row' →
    row.familyId = row'.familyId → row.userId = row'.userId
  single : ∀ id id' row row', db.sessions.committed id = some row →
    db.sessions.committed id' = some row' → row.familyId = row'.familyId →
      row.revokedAt = none → row'.revokedAt = none → id = id'
  pending : ∀ id t row, db.sessions.lock id = some (t, row) → db.sessions.committed id = none →
    Begins db id row ∨ Replaces db t row
  lone : ∀ id id' t row row', db.sessions.lock id = some (t, row) →
    db.sessions.lock id' = some (t, row') → db.sessions.committed id = none →
      db.sessions.committed id' = none → id = id'

def writes : Phase → Prop
  | .rotated _ _ => True
  | .inserted => True
  | _ => False

def stageHolds (t : Nat) (φ : Phase) (db : Db) : Stage → Prop
  | .fresh owned => ∀ n ∈ owned, n < db.nextId ∧
      ∀ id row, db.sessions.Version id row → row.familyId ≠ n
  | .rotating id => writes φ ∧ ∃ old held, db.sessions.committed id = some old ∧
      old.revokedAt = none ∧ db.sessions.lock id = some (t, held) ∧ held.revokedAt ≠ none
  | _ => True

def holds (t : Nat) (φ : Phase × Stage) (db : Db) : Prop :=
  φ.1.holds t db ∧ stageHolds t φ.1 db φ.2

def apart (φ χ : Phase × Stage) : Prop :=
  ∀ n ∈ φ.2.owned, n ∉ χ.2.owned

def familyTypestate (env : Env) : Typestate (machine env) :=
  (typestate env).prod (stages env) holds fun db => Inv db ∧ FamilyInv db

end Invariant

section Versions

variable {t : Nat} {c : Choice} {db db' : Db}

theorem origin_of_exec {q : Stmt} {r : Result q} (h : exec t q c db = some (r, db'))
    {id : Uuid} {row : AuthSession} (hv : db'.sessions.Version id row) :
    (∃ row', db.sessions.Version id row' ∧ SameOrigin row' row) ∨
      q = .insertSession row ∧ id = row.id := by
  have hsame : db.sessions.Version id row → (∃ row', db.sessions.Version id row' ∧
      SameOrigin row' row) ∨ q = .insertSession row ∧ id = row.id :=
    fun hold => .inl ⟨row, hold, .refl row⟩
  cases q with
  | now | uuid4 | tokenUrlsafe | limited | getUser | getUserByEmail | activeAdminCount
  | insertUser | writeUser =>
      rw [(exec_elsewhere rfl h).1] at hv
      exact hsame hv
  | getSessionForUpdate id' =>
      obtain ⟨tb, hi, rfl⟩ := exec_getSessionForUpdate h
      rcases Table.getForUpdate_cases hi with ⟨_, _, rfl⟩ | ⟨v, _, hview, _, rfl⟩
      · exact hsame hv
      · rcases Table.version_of_setLock hv with ⟨rfl, rfl⟩ | hold
        · exact hsame (Table.version_of_view hview)
        · exact hsame hold
  | insertSession row' =>
      obtain ⟨tb, hi, rfl⟩ := exec_insertSession h
      obtain ⟨_, _, rfl⟩ := Table.insert_cases hi
      have hv' : (db.sessions.setLock t row'.id row').Version id row := hv
      rcases Table.version_of_setLock hv' with ⟨rfl, rfl⟩ | hold
      · exact .inr ⟨rfl, rfl⟩
      · exact hsame hold
  | rotateSession id' now replacementId =>
      obtain ⟨r', tb, hi, rfl⟩ := exec_rotateSession h
      obtain ⟨_, ⟨_, _, rfl⟩ | ⟨v, hview, _, _, rfl⟩⟩ := Table.recheckRow_cases hi
      · exact hsame hv
      · rcases Table.version_of_setLock hv with ⟨rfl, rfl⟩ | hold
        · exact .inl ⟨v, Table.version_of_view hview, rfl, rfl⟩
        · exact hsame hold
  | beginRevoke target =>
      obtain ⟨_, _, hs, _, _⟩ := exec_beginRevoke h
      rw [hs] at hv
      exact hsame hv
  | revokeRow target id' now =>
      obtain ⟨r', tb, hi, rfl⟩ := exec_revokeRow h
      obtain ⟨_, ⟨_, _, rfl⟩ | ⟨v, hview, _, _, rfl⟩⟩ := Table.recheckRow_cases hi
      · exact hsame hv
      · rcases Table.version_of_setLock hv with ⟨rfl, rfl⟩ | hold
        · exact .inl ⟨v, Table.version_of_view hview, rfl, rfl⟩
        · exact hsame hold
  | commit =>
      cases h
      exact hsame (Table.version_of_commit hv)
  | rollback =>
      cases h
      exact hsame (Table.version_of_rollback hv)

theorem nextId_of_exec {q : Stmt} {r : Result q} (h : exec t q c db = some (r, db')) :
    db.nextId ≤ db'.nextId := by
  cases q with
  | uuid4 =>
      cases h
      exact Nat.le_succ _
  | now | tokenUrlsafe | limited =>
      cases c with
      | time | text | flag | auto | uuids => cases h <;> exact le_rfl
  | getUser | getUserByEmail | activeAdminCount | commit | rollback =>
      cases h
      exact le_rfl
  | insertUser row =>
      simp only [exec] at h
      split at h
      · cases h
      · obtain ⟨tb, _, ho⟩ := Option.map_eq_some_iff.mp h
        cases ho
        exact le_rfl
  | writeUser | getSessionForUpdate | insertSession | rotateSession | revokeRow =>
      obtain ⟨out, _, ho⟩ := Option.map_eq_some_iff.mp h
      cases ho
      exact le_rfl
  | beginRevoke =>
      cases c with
      | uuids ids =>
          simp only [exec] at h
          split at h
          · cases h
            exact le_rfl
          · cases h
      | _ => cases h

theorem inserted_of_new {φ : Phase} (hφ : φ.holds t db) {id : Uuid} {row : AuthSession}
    (hl : db.sessions.lock id = some (t, row)) (hnone : db.sessions.committed id = none) :
    φ = .inserted := by
  cases φ with
  | idle => exact absurd hl (hφ.1 id row)
  | holding id' row' =>
      rw [hφ.2.2.1 id row hl, hφ.2.1] at hnone
      cases hnone
  | rotated row' replacementId =>
      rw [hφ.2.2.2.1 id row hl, hφ.2.1] at hnone
      cases hnone
  | inserted => rfl
  | revoking target pending =>
      obtain ⟨old, hc, _⟩ := hφ.held id row hl
      rw [hc] at hnone
      cases hnone

end Versions

section Preservation

variable {t : Nat} {db : Db}

theorem familyInv_of_sessions {db' : Db} (hf : FamilyInv db) (hs : db'.sessions = db.sessions)
    (hn : db.nextId ≤ db'.nextId) : FamilyInv db' := by
  obtain ⟨hbounded, hsame, hsingle, hpending, hlone⟩ := hf
  refine ⟨?_, ?_, ?_, ?_, ?_⟩
  · intro id row hv
    rw [hs] at hv
    exact lt_of_lt_of_le (hbounded id row hv) hn
  · rw [hs]
    exact hsame
  · rw [hs]
    exact hsingle
  · unfold Begins Replaces
    rw [hs]
    exact hpending
  · rw [hs]
    exact hlone

theorem familyInv_setLock {k : Uuid} {old v : AuthSession} (hf : FamilyInv db)
    (hnew : ∀ id row, db.sessions.lock id = some (t, row) → db.sessions.committed id ≠ none)
    (hb : ¬ db.sessions.blocked t k) (hc : db.sessions.committed k = some old)
    (ho : SameOrigin old v) : FamilyInv { db with sessions := db.sessions.setLock t k v } := by
  have horigin : ∀ id row, (db.sessions.setLock t k v).Version id row →
      ∃ row', db.sessions.Version id row' ∧ SameOrigin row' row := by
    intro id row hv
    rcases Table.version_of_setLock hv with ⟨rfl, rfl⟩ | hold
    · exact ⟨old, .inl hc, ho⟩
    · exact ⟨row, hold, .refl row⟩
  have hlock : ∀ id u row, db.sessions.committed id = none →
      (db.sessions.setLock t k v).lock id = some (u, row) → db.sessions.lock id = some (u, row) := by
    intro id u row hnone hl
    have hne : id ≠ k := by
      rintro rfl
      rw [hc] at hnone
      cases hnone
    rw [Table.setLock_lock_ne _ _ _ hne] at hl
    exact hl
  refine ⟨?_, ?_, hf.single, ?_, ?_⟩
  · intro id row hv
    obtain ⟨row', hv', hsame⟩ := horigin id row hv
    rw [hsame.1]
    exact hf.bounded id row' hv'
  · intro id id' row row' hv hv' hfamily
    obtain ⟨w, hw, hsame⟩ := horigin id row hv
    obtain ⟨w', hw', hsame'⟩ := horigin id' row' hv'
    rw [hsame.2, hsame'.2]
    exact hf.sameUser id id' w w' hw hw' (by rw [← hsame.1, ← hsame'.1, hfamily])
  · intro id u row hl hnone
    have hl' := hlock id u row hnone hl
    have hu : u ≠ t := by
      rintro rfl
      exact hnew id row hl' hnone
    rcases hf.pending id u row hl' hnone with hbegins | ⟨id', old', held, hc', hactive, hfam, hheld, hrev⟩
    · refine .inl fun id' row' hv' hfamily => ?_
      obtain ⟨w', hw', hsame'⟩ := horigin id' row' hv'
      exact hbegins id' w' hw' (hsame'.1.symm.trans hfamily)
    · refine .inr ⟨id', old', held, hc', hactive, hfam, ?_, hrev⟩
      exact (Table.setLock_lock_of_other hb hu).mpr hheld
  · intro id id' u row row' hl hl' hnone hnone'
    exact hf.lone id id' u row row' (hlock id u row hnone hl) (hlock id' u row' hnone' hl') hnone
      hnone'

theorem familyInv_insert {row : AuthSession} {tb : Table Uuid AuthSession} (hf : FamilyInv db)
    (hnew : ∀ id row, db.sessions.lock id = some (t, row) → db.sessions.committed id ≠ none)
    (hi : db.sessions.insert t row.id row = some tb)
    (hrow : (row.familyId < db.nextId ∧
        ∀ id v, db.sessions.Version id v → v.familyId ≠ row.familyId) ∨
      ∃ id old held, db.sessions.committed id = some old ∧ old.revokedAt = none ∧
        SameOrigin old row ∧ db.sessions.lock id = some (t, held) ∧ held.revokedAt ≠ none) :
    FamilyInv { db with sessions := tb } := by
  obtain ⟨hnone, hfree, rfl⟩ := Table.insert_cases hi
  have hversion : ∀ id v, (db.sessions.setLock t row.id row).Version id v →
      id = row.id ∧ v = row ∨ db.sessions.Version id v := fun id v hv => Table.version_of_setLock hv
  have hother : ∀ id u v, id ≠ row.id →
      (db.sessions.setLock t row.id row).lock id = some (u, v) →
        db.sessions.lock id = some (u, v) := by
    intro id u v hne hl
    rw [Table.setLock_lock_ne _ _ _ hne] at hl
    exact hl
  have hkept : ∀ id u v, id ≠ row.id → db.sessions.lock id = some (u, v) →
      (db.sessions.setLock t row.id row).lock id = some (u, v) := by
    intro id u v hne hl
    rw [Table.setLock_lock_ne _ _ _ hne]
    exact hl
  have hne_of : ∀ {id v}, db.sessions.committed id = some v → id ≠ row.id := by
    rintro id v hc rfl
    rw [hnone] at hc
    cases hc
  refine ⟨?_, ?_, hf.single, ?_, ?_⟩
  · intro id v hv
    rcases hversion id v hv with ⟨rfl, rfl⟩ | hold
    · rcases hrow with ⟨hlt, _⟩ | ⟨id', old, _, hc, _, hsame, _⟩
      · exact hlt
      · rw [hsame.1]
        exact hf.bounded id' old (.inl hc)
    · exact hf.bounded id v hold
  · have hmixed : ∀ id v, db.sessions.Version id v → v.familyId = row.familyId →
        v.userId = row.userId := by
      intro id v hv hfamily
      rcases hrow with ⟨_, hfresh⟩ | ⟨id', old, _, hc, _, hsame, _⟩
      · exact absurd hfamily (hfresh id v hv)
      · rw [hsame.2]
        exact hf.sameUser id id' v old hv (.inl hc) (hfamily.trans hsame.1)
    intro id id' v v' hv hv' hfamily
    rcases hversion id v hv with ⟨rfl, rfl⟩ | hold
    · rcases hversion id' v' hv' with ⟨rfl, rfl⟩ | hold'
      · rfl
      · exact (hmixed id' v' hold' hfamily.symm).symm
    · rcases hversion id' v' hv' with ⟨rfl, rfl⟩ | hold'
      · exact hmixed id v hold hfamily
      · exact hf.sameUser id id' v v' hold hold' hfamily
  · intro id u v hl hnone'
    by_cases hid : id = row.id
    · subst hid
      change (db.sessions.setLock t row.id row).lock row.id = some (u, v) at hl
      rw [Table.setLock_lock_self] at hl
      cases hl
      rcases hrow with ⟨_, hfresh⟩ | ⟨id', old, held, hc, hactive, hsame, hheld, hrev⟩
      · refine .inl fun id' v' hv' hfamily => ?_
        rcases hversion id' v' hv' with ⟨rfl, _⟩ | hold'
        · rfl
        · exact absurd hfamily (hfresh id' v' hold')
      · exact .inr ⟨id', old, held, hc, hactive, hsame.1.symm, hkept id' t held (hne_of hc) hheld,
          hrev⟩
    · have hl' := hother id u v hid hl
      rcases hf.pending id u v hl' hnone' with hbegins | ⟨id', old', held, hc', hactive, hfam, hheld, hrev⟩
      · refine .inl fun id' v' hv' hfamily => ?_
        rcases hversion id' v' hv' with ⟨rfl, rfl⟩ | hold'
        · rcases hrow with ⟨_, hfresh⟩ | ⟨id', old, _, hc, _, hsame, _⟩
          · exact absurd hfamily.symm (hfresh id v (.inr ⟨u, hl'⟩))
          · have hid' := hbegins id' old (.inl hc) (hsame.1.symm.trans hfamily)
            have hmissing : db.sessions.committed id = none := hnone'
            rw [hid', hmissing] at hc
            cases hc
        · exact hbegins id' v' hold' hfamily
      · exact .inr ⟨id', old', held, hc', hactive, hfam, hkept id' u held (hne_of hc') hheld, hrev⟩
  · intro id id' u v v' hl hl' hn hn'
    by_cases hid : id = row.id
    · by_cases hid' : id' = row.id
      · rw [hid, hid']
      · rw [hid] at hl
        change (db.sessions.setLock t row.id row).lock row.id = some (u, v) at hl
        rw [Table.setLock_lock_self] at hl
        cases hl
        exact absurd hn' (hnew id' v' (hother id' _ v' hid' hl'))
    · by_cases hid' : id' = row.id
      · rw [hid'] at hl'
        change (db.sessions.setLock t row.id row).lock row.id = some (u, v') at hl'
        rw [Table.setLock_lock_self] at hl'
        cases hl'
        exact absurd hn (hnew id v (hother id _ v hid hl))
      · exact hf.lone id id' u v v' (hother id u v hid hl) (hother id' u v' hid' hl') hn hn'

theorem familyInv_rollback (hf : FamilyInv db) (t : Nat) : FamilyInv (rollbackTx t db) := by
  have hlock : ∀ id u row, (rollbackTx t db).sessions.lock id = some (u, row) →
      db.sessions.lock id = some (u, row) ∧ u ≠ t := fun id u row hl =>
    (Table.rollback_lock db.sessions t u id row).mp hl
  refine ⟨fun id row hv => hf.bounded id row (Table.version_of_rollback hv),
    fun id id' row row' hv hv' => hf.sameUser id id' row row' (Table.version_of_rollback hv)
      (Table.version_of_rollback hv'), hf.single, ?_, ?_⟩
  · intro id u row hl hnone
    obtain ⟨hl', hu⟩ := hlock id u row hl
    rcases hf.pending id u row hl' hnone with hbegins | ⟨id', old, held, hc, hactive, hfam, hheld, hrev⟩
    · exact .inl fun id' row' hv' => hbegins id' row' (Table.version_of_rollback hv')
    · exact .inr ⟨id', old, held, hc, hactive, hfam,
        (Table.rollback_lock db.sessions t u id' held).mpr ⟨hheld, hu⟩, hrev⟩
  · intro id id' u row row' hl hl' hnone hnone'
    exact hf.lone id id' u row row' (hlock id u row hl).1 (hlock id' u row' hl').1 hnone hnone'

theorem committed_commit_cases (hinv : Inv db) {id : Uuid} {row : AuthSession}
    (hc : (commitTx t db).sessions.committed id = some row) :
    (∃ old, db.sessions.committed id = some old ∧ Evolves old row) ∨
      db.sessions.committed id = none ∧ db.sessions.lock id = some (t, row) := by
  rcases Table.view_cases db.sessions t id with ⟨w, hl, hw⟩ | ⟨_, hw⟩
  · obtain rfl : w = row := Option.some.inj (hw.symm.trans hc)
    cases hold : db.sessions.committed id with
    | none => exact .inr ⟨rfl, hl⟩
    | some old => exact .inl ⟨old, rfl, hinv.evolves id t old w hold hl⟩
  · exact .inl ⟨row, hw.symm.trans hc, .refl row⟩

theorem active_commit_cases (hinv : Inv db) (hf : FamilyInv db) {id : Uuid} {row : AuthSession}
    (hc : (commitTx t db).sessions.committed id = some row) (hactive : row.revokedAt = none) :
    (∃ old, db.sessions.committed id = some old ∧ old.revokedAt = none ∧ SameOrigin old row) ∨
      db.sessions.committed id = none ∧ db.sessions.lock id = some (t, row) ∧
        (Begins db id row ∨ Replaces db t row) := by
  rcases committed_commit_cases hinv hc with ⟨old, hold, hev⟩ | ⟨hnone, hl⟩
  · exact .inl ⟨old, hold, active_of_evolves hev hactive, hev.1⟩
  · exact .inr ⟨hnone, hl, hf.pending id t row hl hnone⟩

theorem version_of_committed_commit {id : Uuid} {row : AuthSession}
    (hc : (commitTx t db).sessions.committed id = some row) : db.sessions.Version id row :=
  Table.version_of_commit (.inl hc)

theorem replaced_commit (hf : FamilyInv db) {id : Uuid} {row old row' : AuthSession}
    (hreplaces : Replaces db t row) (hold : db.sessions.committed id = some old)
    (hactive : old.revokedAt = none) (hfamily : old.familyId = row.familyId)
    (hc : (commitTx t db).sessions.committed id = some row') : row'.revokedAt ≠ none := by
  obtain ⟨id', old', held, hold', hactive', hfamily', hheld, hrevoked⟩ := hreplaces
  have hid := hf.single id id' old old' hold hold' (hfamily.trans hfamily'.symm) hactive hactive'
  subst hid
  have hcommitted := Table.commit_committed_of_lock hheld
  obtain rfl : held = row' := Option.some.inj (hcommitted.symm.trans hc)
  exact hrevoked

theorem single_commit (hinv : Inv db) (hf : FamilyInv db) {id id' : Uuid}
    {row row' : AuthSession} (hc : (commitTx t db).sessions.committed id = some row)
    (hc' : (commitTx t db).sessions.committed id' = some row')
    (hfamily : row.familyId = row'.familyId) (hactive : row.revokedAt = none)
    (hactive' : row'.revokedAt = none) : id = id' := by
  rcases active_commit_cases hinv hf hc hactive with ⟨old, hold, ha, ho⟩ | ⟨hnone, hl, hstart⟩
  · rcases active_commit_cases hinv hf hc' hactive' with
      ⟨old', hold', ha', ho'⟩ | ⟨_, _, hbegins | hreplaces⟩
    · exact hf.single id id' old old' hold hold' (by rw [← ho.1, ← ho'.1, hfamily]) ha ha'
    · exact hbegins id row (version_of_committed_commit hc) hfamily
    · exact absurd hactive
        (replaced_commit hf hreplaces hold ha (ho.1.symm.trans hfamily) hc)
  · rcases hstart with hbegins | hreplaces
    · exact (hbegins id' row' (version_of_committed_commit hc') hfamily.symm).symm
    · rcases active_commit_cases hinv hf hc' hactive' with ⟨old', hold', ha', ho'⟩ | ⟨hnone', hl', _⟩
      · exact absurd hactive'
          (replaced_commit hf hreplaces hold' ha' (ho'.1.symm.trans hfamily.symm) hc')
      · exact hf.lone id id' t row row' hl hl' hnone hnone'

theorem familyInv_commit (hinv : Inv db) (hf : FamilyInv db) (t : Nat) :
    FamilyInv (commitTx t db) := by
  have hlock : ∀ id u row, (commitTx t db).sessions.lock id = some (u, row) →
      db.sessions.lock id = some (u, row) ∧ u ≠ t := fun id u row hl =>
    (Table.commit_lock db.sessions t u id row).mp hl
  have hkept : ∀ id u row, db.sessions.lock id = some (u, row) → u ≠ t →
      (commitTx t db).sessions.committed id = db.sessions.committed id := by
    intro id u row hl hu
    refine Table.commit_committed_of_not_held fun row' hrow' => ?_
    rw [hl] at hrow'
    cases hrow'
    exact hu rfl
  refine ⟨fun id row hv => hf.bounded id row (Table.version_of_commit hv),
    fun id id' row row' hv hv' => hf.sameUser id id' row row' (Table.version_of_commit hv)
      (Table.version_of_commit hv'),
    fun id id' row row' hc hc' => single_commit hinv hf hc hc', ?_, ?_⟩
  · intro id u row hl hnone
    obtain ⟨hl', hu⟩ := hlock id u row hl
    rw [hkept id u row hl' hu] at hnone
    rcases hf.pending id u row hl' hnone with hbegins | ⟨id', old, held, hc, hactive, hfam, hheld, hrev⟩
    · exact .inl fun id' row' hv' => hbegins id' row' (Table.version_of_commit hv')
    · exact .inr ⟨id', old, held, (hkept id' u held hheld hu).trans hc, hactive, hfam,
        (Table.commit_lock db.sessions t u id' held).mpr ⟨hheld, hu⟩, hrev⟩
  · intro id id' u row row' hl hl' hnone hnone'
    obtain ⟨hheld, hu⟩ := hlock id u row hl
    obtain ⟨hheld', hu'⟩ := hlock id' u row' hl'
    rw [hkept id u row hheld hu] at hnone
    rw [hkept id' u row' hheld' hu'] at hnone'
    exact hf.lone id id' u row row' hheld hheld' hnone hnone'

end Preservation

section Statements

variable {t : Nat} {c : Choice} {db db' : Db} {φ ψ : Phase} {σ : Stage}

theorem committed_of_lock (hφ : φ.holds t db) (hne : φ ≠ .inserted) (id : Uuid)
    (row : AuthSession) (hl : db.sessions.lock id = some (t, row)) :
    db.sessions.committed id ≠ none :=
  fun hnone => hne (inserted_of_new hφ hl hnone)

theorem familyInv_exec {q : Stmt} {r : Result q} (hinv : Inv db) (hf : FamilyInv db)
    (hφ : φ.holds t db) (hσ : stageHolds t φ db σ) (hallowed : φ.allowed q)
    (hallowed' : σ.allowed q) (h : exec t q c db = some (r, db')) : FamilyInv db' := by
  cases q with
  | now | uuid4 | tokenUrlsafe | limited | getUser | getUserByEmail | activeAdminCount
  | insertUser | writeUser =>
      exact familyInv_of_sessions hf (exec_elsewhere rfl h).1 (nextId_of_exec h)
  | getSessionForUpdate id =>
      obtain rfl : φ = .idle := hallowed
      obtain ⟨tb, hi, rfl⟩ := exec_getSessionForUpdate h
      rcases Table.getForUpdate_cases hi with ⟨_, _, rfl⟩ | ⟨row, _, hview, hb, rfl⟩
      · exact hf
      · have hc := (Table.NoLocks.view hφ.1 id).symm.trans hview
        exact familyInv_setLock hf (committed_of_lock hφ (by simp)) hb hc (.refl row)
  | insertSession row =>
      obtain ⟨tb, hi, rfl⟩ := exec_insertSession h
      have hne : φ ≠ .inserted := by
        rintro rfl
        rcases hallowed.2 with h' | ⟨_, h', _⟩
        · cases h'
        · cases h'
      refine familyInv_insert hf (committed_of_lock hφ hne) hi ?_
      cases σ with
      | fresh owned => exact .inl (hσ row.familyId hallowed')
      | rotating id =>
          rcases hallowed.2 with rfl | ⟨old, rfl, hsame⟩
          · exact absurd hσ.1 (by simp [writes])
          · obtain ⟨⟨now, hl⟩, hc, hactive, _⟩ := hφ
            exact .inr ⟨old.id, old, _, hc, hactive, hsame, hl, by simp [Auth.rotated]⟩
      | finished | ended => exact absurd hallowed' id
  | rotateSession id now replacementId =>
      obtain ⟨row, rfl, hactive⟩ := hallowed
      obtain ⟨r', tb, hi, rfl⟩ := exec_rotateSession h
      obtain ⟨hb, ⟨_, _, rfl⟩ | ⟨v, hview, _, _, rfl⟩⟩ := Table.recheckRow_cases hi
      · exact hf
      · obtain rfl : row = v :=
          Option.some.inj ((Table.view_of_lock hφ.1).symm.trans hview)
        exact familyInv_setLock hf (committed_of_lock hφ (by simp)) hb hφ.2.1 ⟨rfl, rfl⟩
  | beginRevoke target =>
      obtain ⟨_, _, hs, _, _⟩ := exec_beginRevoke h
      exact familyInv_of_sessions hf hs (nextId_of_exec h)
  | revokeRow target id now =>
      obtain ⟨ids, rfl⟩ := hallowed
      obtain ⟨r', tb, hi, rfl⟩ := exec_revokeRow h
      obtain ⟨hb, ⟨_, _, rfl⟩ | ⟨v, hview, _, _, rfl⟩⟩ := Table.recheckRow_cases hi
      · exact hf
      · have hold : ∃ old, db.sessions.committed id = some old ∧ SameOrigin old v := by
          rcases Table.view_cases db.sessions t id with ⟨w, hl, hw⟩ | ⟨_, hw⟩
          · obtain rfl : w = v := Option.some.inj (hw.symm.trans hview)
            obtain ⟨old, hc, _⟩ := hφ.held id w hl
            exact ⟨old, hc, (hinv.evolves id t old w hc hl).1⟩
          · exact ⟨v, hw.symm.trans hview, .refl v⟩
        obtain ⟨old, hc, hsame⟩ := hold
        exact familyInv_setLock hf (committed_of_lock hφ (by simp)) hb hc hsame
  | commit =>
      cases h
      exact familyInv_commit hinv hf t
  | rollback =>
      cases h
      exact familyInv_rollback hf t

theorem fresh_exec {q : Stmt} {r : Result q} {u : Nat} {χ χ' : Phase} {owned : List Uuid}
    (hσ : stageHolds u χ db (.fresh owned)) (h : exec t q c db = some (r, db'))
    (hinsert : ∀ row, q = .insertSession row → row.familyId ∉ owned) :
    stageHolds u χ' db' (.fresh owned) := by
  intro n hn
  obtain ⟨hlt, hunused⟩ := hσ n hn
  refine ⟨lt_of_lt_of_le hlt (nextId_of_exec h), fun id row hv => ?_⟩
  rcases origin_of_exec h hv with ⟨row', hv', hsame⟩ | ⟨hq, _⟩
  · rw [hsame.1]
    exact hunused id row' hv'
  · rintro rfl
    exact hinsert row hq hn

theorem rotating_frame {u : Nat} {χ : Phase} {id : Uuid} (hframe : Frame u db db')
    (hσ : stageHolds u χ db (.rotating id)) : stageHolds u χ db' (.rotating id) := by
  obtain ⟨hwrites, old, held, hc, hactive, hl, hrevoked⟩ := hσ
  exact ⟨hwrites, old, held, (hframe.kept id held hl).trans hc, hactive,
    (hframe.lock id held).mpr hl, hrevoked⟩

theorem rotating_of_sessions {id : Uuid} (hs : db'.sessions = db.sessions)
    (hσ : stageHolds t φ db (.rotating id)) (hψ : writes ψ) :
    stageHolds t ψ db' (.rotating id) := by
  obtain ⟨_, old, held, hrest⟩ := hσ
  refine ⟨hψ, old, held, ?_⟩
  rw [hs]
  exact hrest

theorem stage_elsewhere {q : Stmt} {r : Result q} (hq : q.onSessions = false)
    (hf : FamilyInv db) (hσ : stageHolds t φ db σ) (hnext : φ.next q r ψ)
    (h : exec t q c db = some (r, db')) : ∃ τ, σ.next q r τ ∧ stageHolds t ψ db' τ := by
  have hs := (exec_elsewhere hq h).1
  have hψ : ψ = φ := by
    cases q with
    | getUser id =>
        cases r with
        | none => exact hnext
        | some user => exact hnext.1
    | now | uuid4 | tokenUrlsafe | limited | getUserByEmail | activeAdminCount | insertUser
    | writeUser => exact hnext
    | _ => cases hq
  have hkept : stageHolds t ψ db' σ.kept := by
    cases σ with
    | fresh owned =>
        refine fresh_exec hσ h ?_
        rintro row rfl
        cases hq
    | rotating id => exact rotating_of_sessions hs hσ (hψ ▸ hσ.1)
    | finished | ended => exact trivial
  cases q with
  | uuid4 =>
      refine ⟨σ.drawn r, rfl, ?_⟩
      cases σ with
      | fresh owned =>
          cases h
          intro n hn
          rcases List.mem_cons.mp hn with rfl | hn
          · refine ⟨Nat.lt_succ_self _, fun id row hv => ?_⟩
            exact ne_of_lt (hf.bounded id row hv)
          · exact hkept n hn
      | rotating id => exact hkept
      | finished | ended => exact trivial
  | getUser | now | tokenUrlsafe | limited | getUserByEmail | activeAdminCount | insertUser
  | writeUser => exact ⟨σ.kept, rfl, hkept⟩
  | _ => cases hq

theorem stage_kept {q : Stmt} {r : Result q} (hσ : stageHolds t φ db σ) (hφ : ¬ writes φ)
    (hinsert : ∀ row, q ≠ .insertSession row) (h : exec t q c db = some (r, db')) :
    stageHolds t ψ db' σ.kept := by
  cases σ with
  | fresh owned => exact fresh_exec hσ h fun row hq => absurd hq (hinsert row)
  | rotating id => exact absurd hσ.1 hφ
  | finished | ended => exact trivial

theorem not_writes_of_settled (h : φ.settled) : ¬ writes φ := by
  cases φ with
  | idle | holding | revoking => exact id
  | rotated | inserted => cases h

theorem stage_exec {q : Stmt} {r : Result q} (hinv : Inv db) (hf : FamilyInv db)
    (hφ : φ.holds t db) (hσ : stageHolds t φ db σ) (hallowed : φ.allowed q)
    (hallowed' : σ.allowed q) (h : exec t q c db = some (r, db')) (hnext : φ.next q r ψ)
    (hψ : ψ.holds t db') : ∃ τ, σ.next q r τ ∧ stageHolds t ψ db' τ := by
  cases q with
  | now | uuid4 | tokenUrlsafe | limited | getUser | getUserByEmail | activeAdminCount
  | insertUser | writeUser => exact stage_elsewhere rfl hf hσ hnext h
  | getSessionForUpdate id =>
      obtain rfl : φ = .idle := hallowed
      have hkept : stageHolds t ψ db' σ.kept := stage_kept hσ (by simp [writes]) (by simp) h
      cases r with
      | none => exact ⟨σ.kept, rfl, hkept⟩
      | some row => exact ⟨σ.kept, ⟨rfl, hnext.2⟩, hkept⟩
  | insertSession row =>
      refine ⟨σ.inserted, rfl, ?_⟩
      cases σ with
      | fresh owned => exact fun n hn => absurd hn List.not_mem_nil
      | rotating id =>
          obtain ⟨_, old, held, hc, hactive, hl, hrevoked⟩ := hσ
          obtain ⟨tb, hi, rfl⟩ := exec_insertSession h
          obtain ⟨hnone, _, rfl⟩ := Table.insert_cases hi
          have hne : id ≠ row.id := by
            rintro rfl
            rw [hnone] at hc
            cases hc
          obtain rfl : ψ = .inserted := hnext
          exact ⟨trivial, old, held, hc, hactive,
            (Table.setLock_lock_ne _ _ _ hne).trans hl, hrevoked⟩
      | finished | ended => exact trivial
  | rotateSession id now replacementId =>
      refine ⟨.rotating id, rfl, ?_⟩
      obtain ⟨row, rfl, _⟩ := hallowed
      obtain rfl : row.id = id := hinv.sessionsId id row (.inl hφ.2.1)
      obtain rfl : ψ = .rotated row replacementId := hnext
      obtain ⟨⟨now', hl⟩, hc, hactive, _⟩ := hψ
      exact ⟨trivial, row, _, hc, hactive, hl, by simp [Auth.rotated]⟩
  | beginRevoke target =>
      exact ⟨σ.kept, rfl, stage_kept hσ (not_writes_of_settled hallowed) (by simp) h⟩
  | revokeRow target id now =>
      obtain ⟨ids, rfl⟩ := hallowed
      exact ⟨σ.kept, rfl, stage_kept hσ (by simp [writes]) (by simp) h⟩
  | commit =>
      refine ⟨σ.committed, rfl, ?_⟩
      cases σ with
      | fresh owned => exact fresh_exec hσ h fun row hq => nomatch hq
      | rotating | finished | ended => exact trivial
  | rollback =>
      refine ⟨σ.rolledBack, rfl, ?_⟩
      cases σ with
      | fresh owned => exact fresh_exec hσ h fun row hq => nomatch hq
      | rotating | finished | ended => exact trivial

theorem owned_next {q : Stmt} {r : Result q} {τ : Stage} (h : exec t q c db = some (r, db'))
    (hnext : σ.next q r τ) {n : Uuid} (hn : n ∈ τ.owned) : n ∈ σ.owned ∨ n = db.nextId := by
  cases q with
  | uuid4 =>
      cases h
      obtain rfl : τ = σ.drawn _ := hnext
      cases σ with
      | fresh owned => exact (List.mem_cons.mp hn).symm
      | rotating | finished | ended => exact absurd hn List.not_mem_nil
  | getSessionForUpdate id =>
      have hτ : τ = σ.kept := by
        cases r with
        | none => exact hnext
        | some row => exact hnext.1
      subst hτ
      cases σ with
      | fresh owned => exact .inl hn
      | rotating | finished | ended => exact absurd hn List.not_mem_nil
  | insertSession row =>
      obtain rfl : τ = σ.inserted := hnext
      cases σ with
      | fresh | rotating | finished | ended => exact absurd hn List.not_mem_nil
  | rotateSession id now replacementId =>
      obtain rfl : τ = .rotating id := hnext
      exact absurd hn List.not_mem_nil
  | commit =>
      obtain rfl : τ = σ.committed := hnext
      cases σ with
      | fresh owned => exact .inl hn
      | rotating | finished | ended => exact absurd hn List.not_mem_nil
  | rollback =>
      obtain rfl : τ = σ.rolledBack := hnext
      cases σ with
      | fresh owned => exact .inl hn
      | rotating | finished | ended => exact absurd hn List.not_mem_nil
  | _ =>
      obtain rfl : τ = σ.kept := hnext
      cases σ with
      | fresh owned => exact .inl hn
      | rotating | finished | ended => exact absurd hn List.not_mem_nil

theorem inserted_not_owned {u : Nat} {χ : Phase} {τ : Stage} {row : AuthSession}
    (hφ : φ.holds t db) (hσ : stageHolds t φ db σ) (hallowed : φ.allowed (.insertSession row))
    (hallowed' : σ.allowed (.insertSession row)) (hapart : apart (φ, σ) (χ, τ))
    (hτ : stageHolds u χ db τ) : row.familyId ∉ τ.owned := by
  intro hmem
  cases σ with
  | fresh owned => exact hapart row.familyId hallowed' hmem
  | rotating id =>
      rcases hallowed.2 with rfl | ⟨old, rfl, hsame⟩
      · exact hσ.1
      · cases τ with
        | fresh owned => exact (hτ row.familyId hmem).2 old.id old (.inl hφ.2.1) hsame.1.symm
        | rotating | finished | ended => exact absurd hmem List.not_mem_nil
  | finished | ended => exact hallowed'

theorem stage_frame {q : Stmt} {r : Result q} {u : Nat} {χ : Phase} {τ : Stage} (hinv : Inv db)
    (hφ : φ.holds t db) (hσ : stageHolds t φ db σ) (hallowed : φ.allowed q)
    (hallowed' : σ.allowed q) (h : exec t q c db = some (r, db')) (hu : u ≠ t)
    (hapart : apart (φ, σ) (χ, τ)) (hτ : stageHolds u χ db τ) : stageHolds u χ db' τ := by
  cases τ with
  | fresh owned =>
      refine fresh_exec hτ h ?_
      rintro row rfl
      exact inserted_not_owned hφ hσ hallowed hallowed' hapart hτ
  | rotating id => exact rotating_frame (frame_exec hinv hu h) hτ
  | finished | ended => exact trivial

theorem apart_next {q : Stmt} {r : Result q} {u : Nat} {χ : Phase} {τ τ' : Stage}
    (h : exec t q c db = some (r, db')) (hnext : σ.next q r τ)
    (hapart : apart (φ, σ) (χ, τ')) (hτ : stageHolds u χ db τ') : apart (ψ, τ) (χ, τ') := by
  intro n hn hmem
  rcases owned_next h hnext hn with hold | rfl
  · exact hapart n hold hmem
  · cases τ' with
    | fresh owned => exact lt_irrefl _ (hτ _ hmem).1
    | rotating | finished | ended => exact absurd hmem List.not_mem_nil

theorem stage_rollback {u : Nat} {χ : Phase} {τ : Stage} (hu : u ≠ t)
    (hτ : stageHolds u χ db τ) : stageHolds u χ (rollbackTx t db) τ := by
  cases τ with
  | fresh owned =>
      intro n hn
      obtain ⟨hlt, hunused⟩ := hτ n hn
      exact ⟨hlt, fun id row hv => hunused id row (Table.version_of_rollback hv)⟩
  | rotating id => exact rotating_frame (frame_rollback hu) hτ
  | finished | ended => exact trivial

theorem family_sound (env : Env) :
    (familyTypestate env).SoundApart apart fun c out ψ => post c out ψ.2 where
  body c := (Typestate.follows_prod (body_leads env c) (body_post env c)).mono fun _ _ h => h.2
  symm h n hn hmem := h n hmem hn
  init _ _ hn := absurd hn List.not_mem_nil
  exec {t φ q c r db db'} hinv hφ hallowed h := by
    obtain ⟨hinv', ψ, hnext, hψ⟩ := sound_exec hinv.1 hφ.1 hallowed.1 h
    obtain ⟨τ, hnext', hτ⟩ :=
      stage_exec hinv.1 hinv.2 hφ.1 hφ.2 hallowed.1 hallowed.2 h hnext hψ
    exact ⟨⟨hinv', familyInv_exec hinv.1 hinv.2 hφ.1 hφ.2 hallowed.1 hallowed.2 h⟩, (ψ, τ),
      ⟨hnext, hnext'⟩, hψ, hτ⟩
  frame hinv hφ hallowed h hnext hu hχ hapart :=
    ⟨⟨(frame_exec hinv.1 hu h).holds hχ.1,
      stage_frame hinv.1 hφ.1 hφ.2 hallowed.1 hallowed.2 h hu hapart hχ.2⟩,
      apart_next h hnext.2 hapart hχ.2⟩
  close {t _ db} hinv _ :=
    ⟨⟨inv_rollback hinv.1 t, familyInv_rollback hinv.2 t⟩, idle_rollback t db,
      fun _ hn => absurd hn List.not_mem_nil⟩
  closeFrame _ _ hu hχ := ⟨(frame_rollback hu).holds hχ.1, stage_rollback hu hχ.2⟩

end Statements

section Runs

def Extinct (db : Db) (familyId : Uuid) : Prop :=
  (∃ id row, db.sessions.committed id = some row ∧ row.familyId = familyId) ∧
    ∀ id row, db.sessions.committed id = some row → row.familyId = familyId →
      row.revokedAt ≠ none

structure Linear (db : Db) : Prop where
  single : ∀ id id' row row', db.sessions.committed id = some row →
    db.sessions.committed id' = some row' → row.familyId = row'.familyId →
      row.revokedAt = none → row'.revokedAt = none → id = id'
  sameUser : ∀ id id' row row', db.sessions.committed id = some row →
    db.sessions.committed id' = some row' → row.familyId = row'.familyId →
      row.userId = row'.userId

structure Continues (db db' : Db) : Prop where
  revoked : ∀ id row, db.sessions.committed id = some row → row.revokedAt ≠ none →
    ∃ row', db'.sessions.committed id = some row' ∧ row'.revokedAt ≠ none
  extinct : ∀ familyId, Extinct db familyId → Extinct db' familyId

def acceptedToken : Call × Outcome → Option String
  | (.refresh refreshToken, .authenticated _) => some refreshToken
  | _ => none

def acceptedTokens (finished : List (Call × Outcome)) : List String :=
  finished.filterMap acceptedToken

structure Spent (db : Db) (finished : List (Call × Outcome)) : Prop where
  nodup : (acceptedTokens finished).Nodup
  revoked : ∀ token ∈ acceptedTokens finished, ∃ id secret row,
    parseRefreshToken token = some (id, secret) ∧ db.sessions.committed id = some row ∧
      row.revokedAt ≠ none

variable {env : Env} {s s' : Recorded (machine env)} {φ : Nat → Phase × Stage} {t : Nat}

abbrev Together (env : Env) : Recorded (machine env) → (Nat → Phase × Stage) → Prop :=
  (familyTypestate env).Together apart fun c out ψ => post c out ψ.2

theorem Continues.refl (db : Db) : Continues db db :=
  ⟨fun _ row hc hrevoked => ⟨row, hc, hrevoked⟩, fun _ h => h⟩

theorem Continues.trans {a b c : Db} (h : Continues a b) (h' : Continues b c) :
    Continues a c := by
  refine ⟨fun id row hc hrevoked => ?_, fun familyId hextinct =>
    h'.extinct familyId (h.extinct familyId hextinct)⟩
  obtain ⟨row', hc', hrevoked'⟩ := h.revoked id row hc hrevoked
  exact h'.revoked id row' hc' hrevoked'

theorem extinct_commit {db : Db} (hinv : Inv db) (hf : FamilyInv db) {familyId : Uuid}
    (h : Extinct db familyId) : Extinct (commitTx t db) familyId := by
  obtain ⟨⟨id, row, hc, hfamily⟩, hrevoked⟩ := h
  constructor
  · obtain ⟨row', hc', hev⟩ := grows_commit (t := t) hinv hc
    exact ⟨id, row', hc', hev.1.1.trans hfamily⟩
  · intro id' row' hc' hfamily' hactive
    rcases active_commit_cases hinv hf hc' hactive with
      ⟨old, hold, hactive', hsame⟩ | ⟨hnone, _, hbegins | hreplaces⟩
    · exact hrevoked id' old hold (hsame.1.symm.trans hfamily') hactive'
    · have hid := hbegins id row (.inl hc) (hfamily.trans hfamily'.symm)
      rw [← hid, hc] at hnone
      cases hnone
    · obtain ⟨old_id, old, _, hold, hactive', hfam, _⟩ := hreplaces
      exact hrevoked old_id old hold (hfam.trans hfamily') hactive'

theorem continues_of_committed {db db' : Db}
    (h : db'.sessions.committed = db.sessions.committed) : Continues db db' := by
  refine ⟨fun id row hc hrevoked => ⟨row, by rw [h]; exact hc, hrevoked⟩, fun familyId hf => ?_⟩
  unfold Extinct
  rw [h]
  exact hf

theorem continues_commit {db : Db} (hinv : Inv db) (hf : FamilyInv db) (t : Nat) :
    Continues db (commitTx t db) := by
  refine ⟨fun id row hc hrevoked => ?_, fun familyId => extinct_commit hinv hf⟩
  obtain ⟨row', hc', hev⟩ := grows_commit (t := t) hinv hc
  refine ⟨row', hc', ?_⟩
  rw [hev.2 hrevoked]
  exact hrevoked

theorem committed_of_exec {c : Choice} {db db' : Db} {q : Stmt} {r : Result q}
    (hq : q ≠ .commit) (h : exec t q c db = some (r, db')) :
    db'.sessions.committed = db.sessions.committed := by
  cases q with
  | now | uuid4 | tokenUrlsafe | limited | getUser | getUserByEmail | activeAdminCount
  | insertUser | writeUser => rw [(exec_elsewhere rfl h).1]
  | getSessionForUpdate id =>
      obtain ⟨tb, hi, rfl⟩ := exec_getSessionForUpdate h
      rcases Table.getForUpdate_cases hi with ⟨_, _, rfl⟩ | ⟨v, _, _, _, rfl⟩
      · rfl
      · rfl
  | insertSession row =>
      obtain ⟨tb, hi, rfl⟩ := exec_insertSession h
      obtain ⟨_, _, rfl⟩ := Table.insert_cases hi
      rfl
  | rotateSession id now replacementId =>
      obtain ⟨r', tb, hi, rfl⟩ := exec_rotateSession h
      obtain ⟨_, ⟨_, _, rfl⟩ | ⟨v, _, _, _, rfl⟩⟩ := Table.recheckRow_cases hi
      · rfl
      · rfl
  | beginRevoke target => rw [(exec_beginRevoke h).2.2.1]
  | revokeRow target id now =>
      obtain ⟨r', tb, hi, rfl⟩ := exec_revokeRow h
      obtain ⟨_, ⟨_, _, rfl⟩ | ⟨v, _, _, _, rfl⟩⟩ := Table.recheckRow_cases hi
      · rfl
      · rfl
  | commit => exact absurd rfl hq
  | rollback =>
      cases h
      rfl

theorem continues_exec {c : Choice} {db db' : Db} {q : Stmt} {r : Result q} (hinv : Inv db)
    (hf : FamilyInv db) (h : exec t q c db = some (r, db')) : Continues db db' := by
  by_cases hq : q = .commit
  · subst hq
    cases h
    exact continues_commit hinv hf t
  · exact continues_of_committed (committed_of_exec hq h)

theorem continues_step {l : Label (machine env)} (h : Together env s φ)
    (hs : s.step l = some s') : Continues s.state.db s'.state.db := by
  cases l with
  | start t c =>
      obtain ⟨_, hstate⟩ := step_start (Recorded.state_of_step hs).1
      rw [hstate]
      exact .refl _
  | exec t choice =>
      obtain ⟨q, r, k, c, ψ, hexecuted⟩ := h.exec (family_sound env) hs
      exact continues_exec h.inv.1 h.inv.2 hexecuted.exec
  | stop t =>
      rw [step_stop (Recorded.state_of_step hs).1]
      exact continues_of_committed rfl

theorem Spent.mono {db db' : Db} {finished : List (Call × Outcome)} (h : Spent db finished)
    (hcontinues : Continues db db') : Spent db' finished := by
  refine ⟨h.nodup, fun token hmem => ?_⟩
  obtain ⟨id, secret, row, hparse, hc, hrevoked⟩ := h.revoked token hmem
  obtain ⟨row', hc', hrevoked'⟩ := hcontinues.revoked id row hc hrevoked
  exact ⟨id, secret, row', hparse, hc', hrevoked'⟩

theorem finished_of_next {q : Stmt} {r : Result q} {σ : Stage} {id : Uuid}
    (h : σ.next q r (.finished id)) : q = .commit ∧ σ = .rotating id := by
  have hkept : Stage.finished id ≠ σ.kept := by cases σ <;> simp [Stage.kept]
  cases q with
  | uuid4 =>
      have hdrawn : Stage.finished id = σ.drawn r := h
      cases σ <;> simp [Stage.drawn] at hdrawn
  | getSessionForUpdate id' =>
      cases r with
      | none => exact absurd h hkept
      | some row => exact absurd h.1 hkept
  | insertSession row =>
      have hinserted : Stage.finished id = σ.inserted := h
      cases σ <;> simp [Stage.inserted] at hinserted
  | rotateSession id' now replacementId => cases h
  | commit =>
      have hcommitted : Stage.finished id = σ.committed := h
      cases σ with
      | rotating id' =>
          rw [Stage.finished.inj hcommitted]
          exact ⟨rfl, rfl⟩
      | fresh | finished | ended => cases hcommitted
  | rollback =>
      have hrolledBack : Stage.finished id = σ.rolledBack := h
      cases σ <;> simp [Stage.rolledBack] at hrolledBack
  | _ => exact absurd h hkept

theorem spent_accepted {db db' : Db} {finished : List (Call × Outcome)} {token : String}
    {result : AuthenticationResult} {c : Choice} {q : Stmt} {r : Result q} {φ ψ : Phase × Stage}
    (hspent : Spent db finished) (hinv : Inv db) (hf : FamilyInv db) (hφ : holds t φ db)
    (h : exec t q c db = some (r, db')) (hnext : φ.2.next q r ψ.2)
    (hpost : post (.refresh token) (.authenticated result) ψ.2) :
    Spent db' ((.refresh token, .authenticated result) :: finished) := by
  obtain ⟨id, secret, hparse, hfinished⟩ := hpost
  rw [hfinished] at hnext
  obtain ⟨rfl, hrotating⟩ := finished_of_next hnext
  have hstage := hφ.2
  rw [hrotating] at hstage
  obtain ⟨_, old, held, hc, hactive, hl, hrevoked⟩ := hstage
  cases h
  have hkept := hspent.mono (continues_commit hinv hf t)
  have hcommitted := Table.commit_committed_of_lock hl
  refine ⟨List.nodup_cons.mpr ⟨fun hmem => ?_, hspent.nodup⟩, fun token' hmem => ?_⟩
  · obtain ⟨id', secret', row, hparse', hc', hrevoked'⟩ := hspent.revoked token hmem
    obtain ⟨rfl, _⟩ := Prod.mk.inj (Option.some.inj (hparse.symm.trans hparse'))
    obtain rfl : old = row := Option.some.inj (hc.symm.trans hc')
    exact hrevoked' hactive
  · rcases List.mem_cons.mp hmem with rfl | hold
    · exact ⟨id, secret, held, hparse, hcommitted, hrevoked⟩
    · exact hkept.revoked token' hold

theorem spent_unaccepted {db : Db} {c : Call} {out : Outcome} {finished : List (Call × Outcome)}
    (hspent : Spent db finished) (h : acceptedToken (c, out) = none) :
    Spent db ((c, out) :: finished) := by
  have hsame : acceptedTokens ((c, out) :: finished) = acceptedTokens finished :=
    List.filterMap_cons_none h
  refine ⟨?_, ?_⟩
  · rw [hsame]
    exact hspent.nodup
  · rw [hsame]
    exact hspent.revoked

theorem spent_step {l : Label (machine env)} (h : Together env s φ)
    (hspent : Spent s.state.db s.finished) (hs : s.step l = some s') :
    Spent s'.state.db s'.finished := by
  have hcontinues := continues_step h hs
  cases l with
  | start t c =>
      rw [(Recorded.state_of_step hs).2]
      exact hspent.mono hcontinues
  | stop t =>
      rw [(Recorded.state_of_step hs).2]
      exact hspent.mono hcontinues
  | exec t choice =>
      obtain ⟨q, r, k, c, ψ, hexecuted⟩ := h.exec (family_sound env) hs
      have hfollows := hexecuted.follows
      rw [hexecuted.finished]
      cases hk : k r with
      | stmt q' k' => exact hspent.mono hcontinues
      | done out =>
          rw [hk] at hfollows
          have hanswered : s.answered t (some (.done out)) = (c, out) :: s.finished := by
            simp [Recorded.answered, hexecuted.called]
          rw [hanswered]
          cases hc : acceptedToken (c, out) with
          | none => exact spent_unaccepted (hspent.mono hcontinues) hc
          | some token =>
              cases c with
              | refresh refreshToken =>
                  cases out with
                  | authenticated result =>
                      exact spent_accepted hspent h.inv.1 h.inv.2 (h.holds t) hexecuted.exec
                        hexecuted.next.2 hfollows
                  | completed | rejected => cases hc
              | _ => cases hc

theorem familyInv_empty : FamilyInv .empty := by
  have hnone : ∀ id row, ¬ Db.empty.sessions.Version id row := fun _ _ => Table.not_version_empty
  refine ⟨fun id row hv => absurd hv (hnone id row),
    fun id id' row row' hv _ => absurd hv (hnone id row), nofun, nofun, nofun⟩

theorem together_run (h : Transition.Run Recorded.step anyStep
    (Recorded.initial Db.empty : Recorded (machine env)) s) :
    (∃ φ, Together env s φ) ∧ Spent s.state.db s.finished := by
  have hstart : Together env (Recorded.initial Db.empty) fun _ => (.idle, .fresh []) :=
    Typestate.together_initial (family_sound env) ⟨consistent_empty.inv, familyInv_empty⟩
      fun t => ⟨consistent_empty.idle t, fun _ hn => absurd hn List.not_mem_nil⟩
  have hspent : Spent Db.empty [] := ⟨List.nodup_nil, fun _ hmem => absurd hmem List.not_mem_nil⟩
  refine Transition.Run.invariant (P := fun s => (∃ φ, Together env s φ) ∧
    Spent s.state.db s.finished) ?_ h ⟨⟨_, hstart⟩, hspent⟩
  rintro s l s' ⟨⟨φ, hφ⟩, hspent⟩ _ hs
  exact ⟨Typestate.together_step (family_sound env) hφ hs, spent_step hφ hspent hs⟩

theorem linear_of_familyInv {db : Db} (hf : FamilyInv db) : Linear db where
  single := hf.single
  sameUser id id' row row' hc hc' := hf.sameUser id id' row row' (.inl hc) (.inl hc')

theorem families_linear (env : Env) {s : Recorded (machine env)}
    (h : Transition.Run Recorded.step anyStep (Recorded.initial Db.empty) s) :
    Linear s.state.db ∧ (acceptedTokens s.finished).Nodup ∧
      ∀ s', Transition.Run Recorded.step anyStep s s' → Continues s.state.db s'.state.db := by
  obtain ⟨⟨φ, hφ⟩, hspent⟩ := together_run h
  refine ⟨linear_of_familyInv hφ.inv.2, hspent.nodup, fun s' hrun => ?_⟩
  induction hrun with
  | refl => exact .refl _
  | tail hrun _ hs ih =>
      obtain ⟨⟨ψ, hψ⟩, _⟩ := together_run (h.trans hrun)
      exact ih.trans (continues_step hψ hs)

def replayed : List (Label (machine demoEnv)) :=
  registered ++ [.start 1 (.refresh firstToken), .exec 1 .auto, .exec 1 (.time 1), .exec 1 .auto,
    .exec 1 .auto, .exec 1 (.text "r"), .exec 1 .auto, .exec 1 .auto, .exec 1 (.time 1),
    .exec 1 .auto, .start 2 (.refresh firstToken), .exec 2 .auto, .exec 2 (.time 2),
    .exec 2 (.uuids [3]), .exec 2 .auto, .exec 2 .auto]

theorem replay_ends_family : ∃ s : Recorded (machine demoEnv),
    Transition.execAll Recorded.step (Recorded.initial Db.empty) replayed = some s ∧
      acceptedTokens s.finished = [firstToken] ∧ s.finished.length = 3 ∧
      Linear s.state.db ∧ (acceptedTokens s.finished).Nodup ∧
      ∀ s', Transition.Run Recorded.step anyStep s s' → Continues s.state.db s'.state.db := by
  obtain ⟨s, hs, haccepted, hlength⟩ : ∃ s : Recorded (machine demoEnv),
      Transition.execAll Recorded.step (Recorded.initial Db.empty) replayed = some s ∧
        acceptedTokens s.finished = [firstToken] ∧ s.finished.length = 3 :=
    ⟨_, rfl, rfl, rfl⟩
  exact ⟨s, hs, haccepted, hlength, families_linear demoEnv (Transition.run_of_execAll hs)⟩

end Runs

end Families

end Auth
