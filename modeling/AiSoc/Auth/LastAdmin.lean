import AiSoc.Auth.Administrators

namespace Auth

open Permissions (Uuid Timestamp)
open RowStore Process
open Transition (anyStep execAll execWhile run_of_execAll run_of_execWhile)

namespace Administrators

structure Frame (u : Nat) (db db' : Db) : Prop where
  lock : db.users.SameLocks db'.users u
  counted : db'.counted u = true → db.counted u = true

theorem Frame.holds {u : Nat} {ψ : Phase} {db db' : Db} (h : Frame u db db')
    (hψ : ψ.holds u db) : ψ.holds u db' := by
  have hcounted : db.counted u = false → db'.counted u = false := by
    intro hfalse
    by_contra htrue
    have := h.counted (by simpa using htrue)
    rw [hfalse] at this
    cases this
  cases ψ with
  | idle => exact ⟨h.lock.noLocks hψ.1, hcounted hψ.2⟩
  | checked => exact h.lock.noLocks hψ
  | guarded id => exact h.lock.onlyLock hψ
  | unchecked => exact hcounted hψ

section Exec

variable {t : Nat} {c : Choice} {db db' : Db}

theorem inv_of_users (hinv : Inv db) (hu : db'.users = db.users) (hc : db'.counted = db.counted) :
    Inv db' := by
  refine ⟨by rw [hu]; exact hinv.nodup, by rw [hu]; exact hinv.known, ?_, ?_⟩ <;>
    simp only [HasActiveAdmin, ActiveAdmin, hu, hc]
  · exact hinv.admin
  · exact hinv.counted

theorem frame_of_users {u : Nat} (hu : db'.users = db.users) (hc : db'.counted u = db.counted u) :
    Frame u db db' :=
  ⟨fun id user => by rw [hu], fun h => hc ▸ h⟩

theorem exec_quiet {q : Stmt} {r : Result q} (hq : Stmt.quiet q = true)
    (h : exec t q c db = some (r, db')) : db'.users = db.users ∧ db'.counted = db.counted := by
  cases q with
  | now | tokenUrlsafe | limited =>
      cases c with
      | time | text | flag | auto | uuids => cases h <;> exact ⟨rfl, rfl⟩
  | uuid4 | getUser | getUserByEmail => cases h; exact ⟨rfl, rfl⟩
  | getSessionForUpdate | insertSession | rotateSession | revokeRow =>
      obtain ⟨out, _, ho⟩ := Option.map_eq_some_iff.mp h
      cases ho
      exact ⟨rfl, rfl⟩
  | beginRevoke =>
      cases c with
      | uuids ids =>
          simp only [exec] at h
          split at h
          · cases h; exact ⟨rfl, rfl⟩
          · cases h
      | _ => cases h
  | _ => cases hq

theorem exec_insertUser {row : User} {r : Unit} (h : exec t (.insertUser row) c db = some (r, db')) :
    ∃ tb, db.users.insert t row.id row = some tb ∧ db' = { db with users := tb } := by
  simp only [exec] at h
  split at h
  · cases h
  · obtain ⟨tb, hi, ho⟩ := Option.map_eq_some_iff.mp h
    cases ho
    exact ⟨tb, hi, rfl⟩

theorem exec_writeUser {id : Uuid} {f : User → User} {r : Unit}
    (h : exec t (.writeUser id f) c db = some (r, db')) :
    ∃ r' tb, db.users.recheckRow t id (fun _ => true) f = some (r', tb) ∧
      db' = { db with users := tb } := by
  obtain ⟨⟨r', tb⟩, hi, ho⟩ := Option.map_eq_some_iff.mp h
  cases ho
  exact ⟨r', tb, hi, rfl⟩

theorem inv_setLock {id : Uuid} {user : User} {tb : Table Uuid User} (hinv : Inv db)
    (hc : tb.committed = db.users.committed) (hl : tb.lock = (db.users.setLock t id user).lock)
    (hnodup : tb.keys.Nodup) (hk : id ∈ tb.keys ∧ ∀ id' ∈ db.users.keys, id' ∈ tb.keys) :
    Inv { db with users := tb } := by
  refine ⟨hnodup, ?_, ?_, ?_⟩
  · intro id' user' hv
    have hv' : (db.users.setLock t id user).Version id' user' := by
      simpa only [Table.Version, hc, hl, Table.setLock_committed] using hv
    rcases Table.version_of_setLock hv' with ⟨rfl, _⟩ | hv'
    · exact hk.1
    · exact hk.2 id' (hinv.known id' user' hv')
  · simpa only [HasActiveAdmin, ActiveAdmin, hc] using hinv.admin
  · simpa only [ActiveAdmin, hc] using hinv.counted

theorem frame_setLock {id : Uuid} {user : User} {tb : Table Uuid User} {u : Nat}
    (hb : ¬ db.users.blocked t id) (hu : u ≠ t)
    (hl : tb.lock = (db.users.setLock t id user).lock) : Frame u db { db with users := tb } where
  lock id' user' := by
    change tb.lock id' = some (u, user') ↔ _
    rw [hl]
    exact Table.setLock_lock_of_other hb hu
  counted h := h

theorem two_of_count (hnodup : db.users.keys.Nodup) (hn : db.users.NoLocks t)
    (hcount : 1 < activeAdminCount db t) :
    ∃ id id', id ≠ id' ∧ ActiveAdmin db id ∧ ActiveAdmin db id' := by
  have hview : ∀ id, db.users.view t id = db.users.committed id :=
    fun id => Table.view_of_not_held fun user => hn id user
  have hactive : ∀ id, ((db.users.view t id).map isActiveAdmin).getD false = true →
      ActiveAdmin db id := by
    intro id hid
    rw [hview] at hid
    cases hc : db.users.committed id with
    | none => rw [hc] at hid; cases hid
    | some user => rw [hc] at hid; exact ⟨user, hc, hid⟩
  rw [activeAdminCount, visibleUsers, List.countP_filterMap, List.countP_eq_length_filter] at hcount
  have hfilter := hnodup.filter fun id => ((db.users.view t id).map isActiveAdmin).getD false
  rcases hadmins : db.users.keys.filter
      (fun id => ((db.users.view t id).map isActiveAdmin).getD false) with _ | ⟨a, _ | ⟨b, rest⟩⟩
  · rw [hadmins] at hcount; cases hcount
  · rw [hadmins] at hcount; cases hcount with | step h => cases h
  · rw [hadmins] at hfilter
    have hne : a ≠ b := fun heq => (List.nodup_cons.mp hfilter).1 (by simp [heq])
    have ha : a ∈ db.users.keys.filter
        (fun id => ((db.users.view t id).map isActiveAdmin).getD false) := by simp [hadmins]
    have hb : b ∈ db.users.keys.filter
        (fun id => ((db.users.view t id).map isActiveAdmin).getD false) := by simp [hadmins]
    exact ⟨a, b, hne, hactive a (List.mem_filter.mp ha).2, hactive b (List.mem_filter.mp hb).2⟩

theorem activeAdmin_commit {id : Uuid} (hadmin : ActiveAdmin db id)
    (hkept : removesAdminRow db t id = false) : ActiveAdmin (commitTx t db) id := by
  obtain ⟨user, hc, huser⟩ := hadmin
  simp only [removesAdminRow, hc, Option.any_some, huser, Bool.true_and, Bool.not_eq_false'] at hkept
  obtain ⟨user', hv, huser'⟩ := Option.any_eq_true _ _ |>.mp hkept
  exact ⟨user', hv, huser'⟩

theorem removesAdminRow_of_not_held {id : Uuid} (h : ∀ user, db.users.lock id ≠ some (t, user)) :
    removesAdminRow db t id = false := by
  rw [removesAdminRow, Table.view_of_not_held h]
  cases (db.users.committed id).any isActiveAdmin <;> rfl

theorem kept_of_removes (hinv : Inv db) (h : removesAnyAdmin db t = false) {id : Uuid}
    (hadmin : ActiveAdmin db id) : ActiveAdmin (commitTx t db) id := by
  obtain ⟨user, hc, huser⟩ := hadmin
  have hid := hinv.known id user (.inl hc)
  have hall := List.any_eq_false.mp h id hid
  exact activeAdmin_commit ⟨user, hc, huser⟩ (by simpa using hall)

def guarded (db : Db) (t : Nat) : Stmt → Bool
  | .commit => !removesAnyAdmin db t || db.counted t
  | _ => true

theorem inv_commit {φ : Phase} (hinv : Inv db) (hφ : φ.holds t db)
    (hguard : guarded db t .commit = true) : Inv (commitTx t db) := by
  have hcounted : ∀ u, (commitTx t db).counted u = true →
      db.counted u = true ∧ removesAnyAdmin db t = false := by
    intro u hu
    simp only [commitTx, Bool.and_eq_true, Bool.not_eq_true'] at hu
    exact ⟨hu.1.1, hu.1.2⟩
  refine ⟨hinv.nodup, fun id user hv => hinv.known id user (Table.version_of_commit hv), ?_, ?_⟩
  · cases hremoves : removesAnyAdmin db t with
    | false =>
        obtain ⟨id, hadmin⟩ := hinv.admin
        exact ⟨id, kept_of_removes hinv hremoves hadmin⟩
    | true =>
        have htrue : db.counted t = true := by simpa [guarded, hremoves] using hguard
        obtain ⟨a, b, hne, ha, hb⟩ := hinv.counted t htrue
        cases φ with
        | idle => rw [hφ.2] at htrue; cases htrue
        | unchecked => rw [show db.counted t = false from hφ] at htrue; cases htrue
        | checked => exact ⟨a, activeAdmin_commit ha (removesAdminRow_of_not_held (hφ a))⟩
        | guarded id =>
            by_cases hid : a = id
            · subst hid
              refine ⟨b, activeAdmin_commit hb (removesAdminRow_of_not_held fun user hl => ?_)⟩
              exact hne (hφ b user hl).symm
            · exact ⟨a, activeAdmin_commit ha
                (removesAdminRow_of_not_held fun user hl => hid (hφ a user hl))⟩
  · intro u hu
    obtain ⟨hu', hremoves⟩ := hcounted u hu
    obtain ⟨a, b, hne, ha, hb⟩ := hinv.counted u hu'
    exact ⟨a, b, hne, kept_of_removes hinv hremoves ha, kept_of_removes hinv hremoves hb⟩

theorem idle_commit (t : Nat) (db : Db) : Phase.idle.holds t (commitTx t db) :=
  ⟨Table.noLocks_commit db.users t, by simp [commitTx]⟩

theorem idle_rollback (t : Nat) (db : Db) : Phase.idle.holds t (rollbackTx t db) :=
  ⟨Table.noLocks_rollback db.users t, by simp [rollbackTx]⟩

theorem inv_rollback (hinv : Inv db) (t : Nat) : Inv (rollbackTx t db) := by
  refine ⟨hinv.nodup, fun id user hv => hinv.known id user (Table.version_of_rollback hv),
    hinv.admin, fun u hu => hinv.counted u ?_⟩
  rcases eq_or_ne u t with rfl | hne
  · simp [rollbackTx] at hu
  · simpa [rollbackTx, hne] using hu

theorem frame_commit {u : Nat} (hu : u ≠ t) : Frame u db (commitTx t db) where
  lock := Table.sameLocks_commit db.users hu
  counted h := by
    simp only [commitTx, Bool.and_eq_true] at h
    exact h.1.1

theorem frame_rollback {u : Nat} (hu : u ≠ t) : Frame u db (rollbackTx t db) where
  lock := Table.sameLocks_rollback db.users hu
  counted h := by simpa [rollbackTx, hu] using h

theorem sound_activeAdminCount {r : Nat} (hinv : Inv db) (hφ : Phase.idle.holds t db)
    (h : exec t .activeAdminCount c db = some (r, db')) :
    Inv db' ∧ Phase.checked.holds t db' := by
  cases h
  refine ⟨⟨hinv.nodup, hinv.known, hinv.admin, fun u hu => ?_⟩, hφ.1⟩
  rcases eq_or_ne u t with rfl | hne
  · simp only [Function.update_self, decide_eq_true_eq] at hu
    exact two_of_count hinv.nodup hφ.1 hu
  · simp only [Function.update_of_ne hne] at hu
    exact hinv.counted u hu

theorem sound_insertUser {φ : Phase} {row : User} {r : Unit} (hinv : Inv db)
    (hφ : φ.holds t db) (hallowed : φ = .idle ∨ φ = .unchecked)
    (h : exec t (.insertUser row) c db = some (r, db')) :
    Inv db' ∧ Phase.unchecked.holds t db' := by
  obtain ⟨tb, hi, rfl⟩ := exec_insertUser h
  obtain ⟨_, _, rfl⟩ := Table.insert_cases hi
  refine ⟨inv_setLock hinv rfl rfl (hinv.nodup.insert) ⟨by simp, fun id hid => by simp [hid]⟩, ?_⟩
  rcases hallowed with rfl | rfl
  · exact hφ.2
  · exact hφ

theorem sound_writeUser {φ : Phase} {id : Uuid} {f : User → User} {r : Unit} (hinv : Inv db)
    (hφ : φ.holds t db) (hallowed : φ.allowed (.writeUser id f))
    (h : exec t (.writeUser id f) c db = some (r, db')) :
    Inv db' ∧ (φ.afterWrite id).holds t db' := by
  obtain ⟨r', tb, hi, rfl⟩ := exec_writeUser h
  have hsame : ∀ tb' : Table Uuid User, φ.holds t db →
      (∀ id' user, tb'.lock id' = some (t, user) → id' = id ∨ db.users.lock id' = some (t, user)) →
      (φ.afterWrite id).holds t { db with users := tb' } := by
    intro tb' _ hlocks
    rcases hallowed with rfl | rfl | rfl
    · exact hφ.2
    · intro id' user hl
      exact (hlocks id' user hl).elim (fun h => h) fun h => absurd h (hφ id' user)
    · exact hφ
  obtain ⟨_, ⟨_, _, rfl⟩ | ⟨v, hv, _, _, rfl⟩⟩ := Table.recheckRow_cases hi
  · exact ⟨hinv, hsame _ hφ fun _ _ hl => .inr hl⟩
  · have hid := hinv.known id v (Table.version_of_view hv)
    refine ⟨inv_setLock hinv rfl rfl hinv.nodup ⟨hid, fun _ h => h⟩, hsame _ hφ ?_⟩
    intro id' user hl
    rcases eq_or_ne id' id with rfl | hne
    · exact .inl rfl
    · exact .inr ((Table.setLock_lock_ne _ _ _ hne).symm.trans hl)

theorem sound_exec {φ : Phase} {q : Stmt} {r : Result q} (hinv : Inv db) (hφ : φ.holds t db)
    (hallowed : φ.allowed q) (hguard : guarded db t q = true)
    (h : exec t q c db = some (r, db')) : Inv db' ∧ ∃ ψ, φ.next q r ψ ∧ ψ.holds t db' := by
  cases q with
  | activeAdminCount =>
      obtain rfl : φ = .idle := hallowed
      obtain ⟨hinv', hψ⟩ := sound_activeAdminCount hinv hφ h
      exact ⟨hinv', .checked, rfl, hψ⟩
  | insertUser row =>
      obtain ⟨hinv', hψ⟩ := sound_insertUser hinv hφ hallowed h
      exact ⟨hinv', .unchecked, rfl, hψ⟩
  | writeUser id f =>
      obtain ⟨hinv', hψ⟩ := sound_writeUser hinv hφ hallowed h
      exact ⟨hinv', _, rfl, hψ⟩
  | commit =>
      cases h
      exact ⟨inv_commit hinv hφ hguard, .idle, rfl, idle_commit t db⟩
  | rollback =>
      cases h
      exact ⟨inv_rollback hinv t, .idle, rfl, idle_rollback t db⟩
  | _ =>
      obtain ⟨hu, hc⟩ := exec_quiet rfl h
      exact ⟨inv_of_users hinv hu hc, φ, rfl, (frame_of_users hu (congrFun hc t)).holds hφ⟩

theorem frame_exec {q : Stmt} {r : Result q} {u : Nat} (hu : u ≠ t)
    (h : exec t q c db = some (r, db')) : Frame u db db' := by
  cases q with
  | activeAdminCount =>
      cases h
      exact frame_of_users rfl (Function.update_of_ne hu ..)
  | insertUser row =>
      obtain ⟨tb, hi, rfl⟩ := exec_insertUser h
      obtain ⟨_, hl, rfl⟩ := Table.insert_cases hi
      exact frame_setLock (Table.not_blocked_iff.mpr (.inl hl)) hu rfl
  | writeUser id f =>
      obtain ⟨r', tb, hi, rfl⟩ := exec_writeUser h
      obtain ⟨hb, ⟨_, _, rfl⟩ | ⟨v, _, _, _, rfl⟩⟩ := Table.recheckRow_cases hi
      · exact frame_of_users rfl rfl
      · exact frame_setLock hb hu rfl
  | commit =>
      cases h
      exact frame_commit hu
  | rollback =>
      cases h
      exact frame_rollback hu
  | _ =>
      obtain ⟨husers, hc⟩ := exec_quiet rfl h
      exact frame_of_users husers (congrFun hc u)

theorem typestate_sound {env : Env} :
    (typestate env).Sound fun db t q => guarded db t q = true where
  body := body_safe env
  exec hinv hφ hallowed hok h := sound_exec hinv hφ hallowed hok h
  frame _ _ _ _ h hu hψ := (frame_exec hu h).holds hψ
  close {t _ db} hinv _ := ⟨inv_rollback hinv t, idle_rollback t db⟩
  closeFrame _ _ hu hψ := (frame_rollback hu).holds hψ

end Exec

structure Administered (db : Db) : Prop where
  inv : Inv db
  idle : ∀ t, Phase.idle.holds t db

def GuardedStep {env : Env} (s : State (machine env)) (l : Label (machine env)) : Prop :=
  ∀ t c k, l = .exec t c → s.procs t = some (.stmt .commit k) →
    removesAnyAdmin s.db t = true → s.db.counted t = true

theorem stmtOk_of_guarded {env : Env} {s : State (machine env)} {l : Label (machine env)}
    (h : GuardedStep s l) : Typestate.stmtOk (fun db t q => guarded db t q = true) s l := by
  cases l with
  | exec t c =>
      intro q k hp
      cases q with
      | commit =>
          have hcounted := h t c k rfl hp
          cases hremoves : removesAnyAdmin s.db t with
          | false => simp [guarded, hremoves]
          | true => simp [guarded, hcounted hremoves]
      | _ => rfl
  | start | stop => exact trivial

theorem admin_remains_of_guarded (env : Env) {db : Db} {s : State (machine env)}
    (hdb : Administered db) (hrun : Run GuardedStep (State.initial db) s) :
    HasActiveAdmin s.db := by
  have hg : (typestate env).Good (State.initial db : State (machine env)) :=
    Typestate.good_initial hdb.inv hdb.idle
  have hrun' := hrun.mono fun _ _ h => stmtOk_of_guarded h
  exact (Typestate.good_of_run typestate_sound hrun' hg).1.admin

section Traces

def admin (id : Uuid) (email : String) : User where
  id := id
  email := email
  fullName := email
  passwordHash := "pw"
  roleName := "admin"
  isActive := true
  lastLoginAt := none
  credentialsChangedAt := 0
  updatedAt := 0

def twoAdmins : Db where
  users :=
    { keys := [0, 1]
      committed := fun id =>
        if id = 0 then some (admin 0 "a@b") else if id = 1 then some (admin 1 "b@b") else none
      lock := fun _ => none }
  sessions := .empty
  nextId := 2
  revoking := fun _ => []
  counted := fun _ => false

theorem administered_twoAdmins : Administered twoAdmins where
  inv := by
    refine ⟨by decide, ?_, ⟨0, admin 0 "a@b", rfl, rfl⟩, nofun⟩
    rintro id user (hc | ⟨t, hl⟩)
    · simp only [twoAdmins] at hc ⊢
      split at hc
      · simp [*]
      · split at hc
        · simp [*]
        · cases hc
    · cases hl
  idle t := ⟨fun _ _ => nofun, rfl⟩

def deactivated : UserUpdate := ⟨none, none, some false⟩

def isGuarded (s : State (machine demoEnv)) : Label (machine demoEnv) → Bool
  | .exec t _ =>
      match s.procs t with
      | some (.stmt .commit _) => !removesAnyAdmin s.db t || s.db.counted t
      | _ => true
  | _ => true

theorem guardedStep_of_isGuarded {s : State (machine demoEnv)} {l : Label (machine demoEnv)}
    (h : isGuarded s l = true) : GuardedStep s l := by
  rintro t c k rfl hp hremoves
  simpa [isGuarded, hp, hremoves] using h

def oneDeactivated : List (Label (machine demoEnv)) :=
  [.start 1 (.update 1 deactivated), .exec 1 .auto, .exec 1 .auto, .exec 1 (.time 1),
    .exec 1 .auto, .exec 1 (.time 1), .exec 1 (.uuids []), .exec 1 .auto, .stop 1]

theorem oneDeactivated_admin : ∃ s : State (machine demoEnv),
    execWhile step isGuarded (State.initial twoAdmins) oneDeactivated = some s ∧
      ¬ ActiveAdmin s.db 1 ∧ HasActiveAdmin s.db := by
  obtain ⟨s, user, hs, hc, huser⟩ : ∃ (s : State (machine demoEnv)) (user : User),
      execWhile step isGuarded (State.initial twoAdmins) oneDeactivated = some s ∧
        s.db.users.committed 1 = some user ∧ isActiveAdmin user = false :=
    ⟨_, _, rfl, rfl, rfl⟩
  refine ⟨s, hs, ?_, admin_remains_of_guarded demoEnv administered_twoAdmins
    ((run_of_execWhile hs).mono fun _ _ h => guardedStep_of_isGuarded h)⟩
  rintro ⟨user', hc', huser'⟩
  obtain rfl : user = user' := Option.some.inj (hc.symm.trans hc')
  rw [huser] at huser'
  cases huser'

def eachOther : List (Label (machine demoEnv)) :=
  [.start 1 (.update 1 deactivated), .start 2 (.update 0 deactivated),
    .exec 1 .auto, .exec 2 .auto, .exec 1 .auto, .exec 2 .auto, .exec 1 (.time 1),
    .exec 2 (.time 1), .exec 1 .auto, .exec 2 .auto, .exec 1 (.time 1), .exec 2 (.time 1),
    .exec 1 (.uuids []), .exec 2 (.uuids []), .exec 1 .auto, .exec 2 .auto]

theorem eachOther_no_admin : ¬ ∀ (db : Db) (s : State (machine demoEnv)), Administered db →
    Run anyStep (State.initial db) s → HasActiveAdmin s.db := by
  intro hclaim
  obtain ⟨s, hs, hnone⟩ : ∃ s : State (machine demoEnv),
      execAll step (State.initial twoAdmins) eachOther = some s ∧
        ∀ id, (s.db.users.committed id).any isActiveAdmin = false :=
    ⟨_, rfl, fun | 0 => rfl | 1 => rfl | _ + 2 => rfl⟩
  obtain ⟨id, user, hc, hadmin⟩ := hclaim twoAdmins s administered_twoAdmins (run_of_execAll hs)
  have hid := hnone id
  simp [hc, hadmin] at hid

end Traces

end Administrators

end Auth
