import AiSoc.ResponseActions.Soundness

namespace ResponseActions

open Permissions (Uuid Timestamp)
open RowStore Process
open Transition (anyStep execAll run_of_execAll)

section Runs

variable {settings : Settings} {s s' : State (machine settings)}

def Stmt.commits : Stmt → Bool
  | .commit => true
  | _ => false

theorem exec_trail {t : Nat} {q : Stmt} {c : Choice} {db db' : Db} {r : Result q}
    (hq : q.commits = false) (h : exec t q c db = some (r, db')) : db'.trail = db.trail := by
  cases q with
  | now | proposeReads | get | scanApproved | rpush | lpop | userExists =>
      obtain ⟨queue, rfl⟩ := exec_quiet rfl h
      rfl
  | insertAction => obtain ⟨tb, _, rfl⟩ := exec_insertAction h; rfl
  | getForUpdate => obtain ⟨tb, _, rfl⟩ := exec_getForUpdate h; rfl
  | claim => obtain ⟨tb, _, rfl⟩ := exec_claim h; rfl
  | write => obtain ⟨_, tb, _, rfl⟩ := exec_write h; rfl
  | revokeUser _ userId => exact (exec_effect (.inl ⟨userId, rfl⟩) h).2.2.1
  | executeAwsAction => exact (exec_effect (.inr rfl) h).2.2.1
  | rollback => cases h; rfl
  | commit => cases hq
  | raise => exact r.elim

theorem exec_effects {t : Nat} {q : Stmt} {c : Choice} {db db' : Db} {r : Result q}
    (h : exec t q c db = some (r, db')) :
    db'.effects = db.effects ∨
      ∃ id, db'.effects = id :: db.effects ∧ db'.trail = db.trail := by
  cases q with
  | now | proposeReads | get | scanApproved | rpush | lpop | userExists =>
      obtain ⟨queue, rfl⟩ := exec_quiet rfl h
      exact .inl rfl
  | insertAction => obtain ⟨tb, _, rfl⟩ := exec_insertAction h; exact .inl rfl
  | getForUpdate => obtain ⟨tb, _, rfl⟩ := exec_getForUpdate h; exact .inl rfl
  | claim => obtain ⟨tb, _, rfl⟩ := exec_claim h; exact .inl rfl
  | write => obtain ⟨_, tb, _, rfl⟩ := exec_write h; exact .inl rfl
  | revokeUser id userId =>
      obtain ⟨_, _, htr, _, heff, _⟩ := exec_effect (.inl ⟨userId, rfl⟩) h
      exact .inr ⟨id, heff, htr⟩
  | executeAwsAction id =>
      obtain ⟨_, _, htr, _, heff, _⟩ := exec_effect (.inr rfl) h
      exact .inr ⟨id, heff, htr⟩
  | commit => cases h; exact .inl rfl
  | rollback => cases h; exact .inl rfl
  | raise => exact r.elim

theorem committedTrail_cases (db : Db) (t : Nat) (id : Uuid) :
    committedTrail db t id = db.trail id ∨ ∃ b, committedTrail db t id = b :: db.trail id := by
  unfold committedTrail
  split
  · split
    · exact .inr ⟨_, rfl⟩
    · exact .inl rfl
  · exact .inl rfl

theorem step_trail {l : Label (machine settings)} (h : step s l = some s') (id : Uuid) :
    s'.db.trail id = s.db.trail id ∨ ∃ b, s'.db.trail id = b :: s.db.trail id := by
  cases l with
  | start t c =>
      obtain ⟨_, rfl⟩ := step_start h
      exact .inl rfl
  | stop t =>
      obtain rfl := step_stop h
      exact .inl rfl
  | exec t c =>
      obtain ⟨q, k, r, db, _, hq, rfl⟩ := step_exec h
      cases hcommit : Stmt.commits q with
      | false => exact .inl (congrFun (exec_trail hcommit hq) id)
      | true =>
          cases q <;> cases hcommit
          cases hq
          exact committedTrail_cases s.db t id

theorem step_effects {l : Label (machine settings)} (h : step s l = some s') :
    s'.db.effects = s.db.effects ∨
      ∃ id, s'.db.effects = id :: s.db.effects ∧ s'.db.trail = s.db.trail := by
  cases l with
  | start t c =>
      obtain ⟨_, rfl⟩ := step_start h
      exact .inl rfl
  | stop t =>
      obtain rfl := step_stop h
      exact .inl rfl
  | exec t c =>
      obtain ⟨q, k, r, db, _, hq, rfl⟩ := step_exec h
      exact exec_effects hq

def statusOf (db : Db) (id : Uuid) : Option ActionStatus :=
  (db.actions.committed id).map (·.status)

structure Contained (db : Db) : Prop where
  once : ∀ id, db.effects.count id ≤ 1
  approved : ∀ id, id ∈ db.effects → .approved ∈ db.trail id
  trail : ∀ id, statusOf db id = (db.trail id).head?
  history : ∀ id, db.trail id = [] ∨ History (db.trail id)
  revoked : ∀ id row, db.actions.committed id = some row → row.actionType = .revokeAppSessions →
    (row.status = .succeeded ↔
      ∃ userId, PyStr.uuid row.target = some userId ∧ (id, userId) ∈ db.revoked)
  onlyRevokes : ∀ id userId, (id, userId) ∈ db.revoked →
    ∃ row, db.actions.committed id = some row ∧ row.status = .succeeded ∧ Revokes row userId

structure Advances (db db' : Db) : Prop where
  effect : db'.effects = db.effects ∨
    ∃ id, db'.effects = id :: db.effects ∧ id ∉ db.effects ∧ .approved ∈ db.trail id
  created : ∀ id a, statusOf db id = none → statusOf db' id = some a → a = .proposed
  moved : ∀ id a, statusOf db id = some a →
    statusOf db' id = some a ∨ ∃ b, statusOf db' id = some b ∧ Moves a b
  final : ∀ id a, statusOf db id = some a → a.terminal = true → statusOf db' id = some a

theorem Inv.trail_status {db : Db} (h : Inv db) (id : Uuid) :
    statusOf db id = (db.trail id).head? ∧ (db.trail id = [] ∨ History (db.trail id)) := by
  cases hrow : db.actions.committed id with
  | none =>
      have habs := h.absent hrow
      simp [statusOf, hrow, habs.trail]
  | some row =>
      have hr := h.row hrow
      refine ⟨?_, .inr hr.history⟩
      rw [hr.head]
      simp [statusOf, hrow]

theorem Inv.approved_of_effect {db : Db} (h : Inv db) {id : Uuid} (hid : id ∈ db.effects) :
    .approved ∈ db.trail id := by
  have hpos : 0 < db.effects.count id := List.count_pos_iff.mpr hid
  cases hrow : db.actions.committed id with
  | none =>
      have habs := h.absent hrow
      exact absurd habs.effects (by omega)
  | some row =>
      have hr := h.row hrow
      obtain ⟨l, hl⟩ := List.head?_eq_some_iff.mp hr.head
      have hhist := hr.history
      rw [hl] at hhist ⊢
      exact hhist.approved_of_started (hr.afterClaim hpos)

theorem Inv.count_le_one {db : Db} (h : Inv db) (id : Uuid) : db.effects.count id ≤ 1 := by
  cases hrow : db.actions.committed id with
  | none =>
      have := (h.absent hrow).effects
      omega
  | some row => exact (h.row hrow).once

theorem Inv.contained {db : Db} (h : Inv db) : Contained db where
  once := h.count_le_one
  approved _ := h.approved_of_effect
  trail id := (h.trail_status id).1
  history id := (h.trail_status id).2
  revoked id row hrow htype := by
    have hr := h.row hrow
    constructor
    · intro hs
      obtain ⟨userId, hu⟩ := hr.resolved hs htype
      exact ⟨userId, hu.2, (hr.revoked userId).mpr ⟨hs, hu⟩⟩
    · rintro ⟨userId, _, hm⟩
      exact ((hr.revoked userId).mp hm).1
  onlyRevokes id userId hm := by
    cases hrow : db.actions.committed id with
    | none => exact absurd hm ((h.absent hrow).revoked userId)
    | some row => exact ⟨row, rfl, ((h.row hrow).revoked userId).mp hm⟩

theorem advances_of_trail {db db' : Db} (h : Inv db) (h' : Inv db')
    (htrail : ∀ id, db'.trail id = db.trail id ∨ ∃ b, db'.trail id = b :: db.trail id)
    (heffect : db'.effects = db.effects ∨
      ∃ id, db'.effects = id :: db.effects ∧ db'.trail = db.trail) : Advances db db' := by
  have hmoved : ∀ id a, statusOf db id = some a →
      statusOf db' id = some a ∨ ∃ b, statusOf db' id = some b ∧ Moves a b := by
    intro id a ha
    have hs := (h.trail_status id).1
    have hs' := (h'.trail_status id).1
    rcases htrail id with htr | ⟨b, htr⟩
    · exact .inl (by rw [hs', htr, ← hs, ha])
    · obtain ⟨l, hl⟩ := List.head?_eq_some_iff.mp (hs.symm.trans ha)
      rw [hl] at htr
      refine .inr ⟨b, by rw [hs', htr]; rfl, ?_⟩
      rcases (h'.trail_status id).2 with hnil | hhist
      · rw [htr] at hnil; cases hnil
      · rw [htr] at hhist
        cases hhist with
        | move _ hm => exact hm
  refine ⟨?_, ?_, hmoved, ?_⟩
  · rcases heffect with heq | ⟨id, heq, htr⟩
    · exact .inl heq
    · have hmem : id ∈ db'.effects := by simp [heq]
      have happroved := h'.approved_of_effect hmem
      have hcount := h'.count_le_one id
      rw [heq, List.count_cons_self] at hcount
      have hnot : id ∉ db.effects := List.count_eq_zero.mp (by omega)
      rw [htr] at happroved
      exact .inr ⟨id, heq, hnot, happroved⟩
  · intro id a hnone ha
    have hs := (h.trail_status id).1
    have hs' := (h'.trail_status id).1
    have hempty : db.trail id = [] := List.head?_eq_none_iff.mp (hs.symm.trans hnone)
    rcases htrail id with htr | ⟨b, htr⟩
    · rw [hs', htr, ← hs, hnone] at ha; cases ha
    · rw [hempty] at htr
      rcases (h'.trail_status id).2 with hnil | hhist
      · rw [htr] at hnil; cases hnil
      · rw [hs', htr] at ha
        rw [htr] at hhist
        cases ha
        cases hhist
        rfl
  · intro id a ha hterm
    rcases hmoved id a ha with hsame | ⟨b, _, hm⟩
    · exact hsame
    · rw [hm.not_terminal] at hterm; cases hterm

theorem inv_of_run (h : Run anyStep (State.initial Db.empty) s) :
    (typestate settings).Good s := by
  have hg : (typestate settings).Good (State.initial Db.empty) :=
    Typestate.good_initial inv_empty fun t => ⟨nofun, rfl⟩
  exact Typestate.good_of_anyRun typestate_sound h hg

theorem action_effect_once_after_approval (settings : Settings) {s : State (machine settings)}
    (h : Run anyStep (State.initial Db.empty) s) :
    Contained s.db ∧ ∀ l s', step s l = some s' → Advances s.db s'.db := by
  have hg := inv_of_run h
  refine ⟨hg.1.contained, fun l s' hs => ?_⟩
  have hg' := inv_of_run (h.tail trivial hs)
  exact advances_of_trail hg.1 hg'.1 (step_trail hs) (step_effects hs)

def revokePayload : ResponseActionCreate where
  actionType := .revokeAppSessions
  target := "00000000-0000-0000-0000-000000000009"
  accountId := none
  rationale := "token theft"
  impact := "signs the user out"
  evidenceRefs := ["incident:00000000-0000-0000-0000-000000000005"]
  idempotencyKey := "key-00000001"

def duplicateDelivery : List (Label (machine {})) :=
  [.start 0 (.propose 5 1 revokePayload), 
    .exec 0 (.reads true ["incident:00000000-0000-0000-0000-000000000005"] true), .exec 0 (.time 0),
    .exec 0 (.uuid 7), .exec 0 .auto, .stop 0,
    .start 0 (.decide 7 2 true), .exec 0 .auto, .exec 0 (.time 1), .exec 0 .auto, .exec 0 .auto,
    .exec 0 .auto, .stop 0,
    .start 1 (.deliver 7), .start 2 (.worker false), .exec 2 .auto, .exec 1 (.time 2),
    .exec 2 (.time 2), .exec 1 .auto, .exec 1 .auto, .exec 2 .auto, .exec 2 .auto,
    .exec 1 (.flag true), .exec 1 .auto, .exec 1 (.time 3), .exec 1 .auto, .exec 1 .auto]

theorem duplicateDelivery_once :
    ∃ s, execAll step (State.initial Db.empty) duplicateDelivery = some s ∧ s.db.effects = [7] ∧
      statusOf s.db 7 = some .succeeded ∧ Contained s.db ∧
      ∀ l s', step s l = some s' → Advances s.db s'.db := by
  obtain ⟨s, hs, heffects, hstatus⟩ : ∃ s,
      execAll step (State.initial Db.empty) duplicateDelivery = some s ∧ s.db.effects = [7] ∧
        statusOf s.db 7 = some .succeeded := ⟨_, rfl, rfl, rfl⟩
  exact ⟨s, hs, heffects, hstatus, action_effect_once_after_approval {} (run_of_execAll hs)⟩

end Runs

end ResponseActions
