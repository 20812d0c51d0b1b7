import AiSoc.ResponseActions.Worker

namespace ResponseActions

open Permissions (Uuid Timestamp)
open RowStore Process

inductive Moves : ActionStatus → ActionStatus → Prop where
  | approve : Moves .proposed .approved
  | reject : Moves .proposed .rejected
  | claim : Moves .approved .running
  | succeed : Moves .running .succeeded
  | fail : Moves .running .failed

-- the committed statuses of one row, newest first
inductive History : List ActionStatus → Prop where
  | proposed : History [.proposed]
  | move {a b : ActionStatus} {l : List ActionStatus} :
      History (a :: l) → Moves a b → History (b :: a :: l)

def ActionStatus.started : ActionStatus → Bool
  | .running | .succeeded | .failed => true
  | _ => false

def ActionStatus.terminal : ActionStatus → Bool
  | .rejected | .succeeded | .failed => true
  | _ => false

theorem Moves.ne {a b : ActionStatus} (h : Moves a b) : a ≠ b := by
  cases h <;> decide

theorem Moves.not_terminal {a b : ActionStatus} (h : Moves a b) : a.terminal = false := by
  cases h <;> rfl

theorem Moves.from_started {a b : ActionStatus} (h : Moves a b) (ha : a.started = true) :
    a = .running ∧ (b = .succeeded ∨ b = .failed) := by
  cases h <;> simp [ActionStatus.started] at ha ⊢

theorem Moves.to_started {a b : ActionStatus} (h : Moves a b) (ha : a.started = false)
    (hb : b.started = true) : a = .approved ∧ b = .running := by
  cases h <;> simp [ActionStatus.started] at ha hb ⊢

theorem History.approved_of_started {a : ActionStatus} {l : List ActionStatus}
    (h : History (a :: l)) (ha : a.started = true) : .approved ∈ a :: l := by
  generalize hs : a :: l = trail at h
  induction h generalizing a l with
  | proposed => cases hs; simp [ActionStatus.started] at ha
  | @move c b l' hl hm ih =>
      cases hs
      by_cases hc : c.started = true
      · exact List.mem_cons_of_mem _ (ih hc rfl)
      · obtain ⟨rfl, _⟩ := hm.to_started (by simpa using hc) ha
        simp

def Revokes (row : ResponseAction) (userId : Uuid) : Prop :=
  row.actionType = .revokeAppSessions ∧ PyStr.uuid row.target = some userId

def Resolved (row : ResponseAction) : Prop :=
  row.actionType = .revokeAppSessions → ∃ userId, Revokes row userId

structure RowInv (row : ResponseAction) (trail : List ActionStatus) (claimedBy : Option Nat)
    (effects : Nat) (revoked : Uuid → Prop) : Prop where
  history : History trail
  head : trail.head? = some row.status
  claimed : row.status.started = claimedBy.isSome
  once : effects ≤ 1
  afterClaim : 0 < effects → row.status.started = true
  revoked : ∀ userId, revoked userId ↔ row.status = .succeeded ∧ Revokes row userId
  resolved : row.status = .succeeded → Resolved row

structure AbsentInv (trail : List ActionStatus) (claimedBy : Option Nat) (effects : Nat)
    (revoked : Uuid → Prop) : Prop where
  trail : trail = []
  claimed : claimedBy = none
  effects : effects = 0
  revoked : ∀ userId, ¬ revoked userId

def IdInv (row : Option ResponseAction) (trail : List ActionStatus) (claimedBy : Option Nat)
    (effects : Nat) (revoked : Uuid → Prop) : Prop :=
  match row with
  | none => AbsentInv trail claimedBy effects revoked
  | some row => RowInv row trail claimedBy effects revoked

def Inv (db : Db) : Prop :=
  ∀ id, IdInv (db.actions.committed id) (db.trail id) (db.claimedBy id) (db.effects.count id)
    fun userId => (id, userId) ∈ db.revoked

theorem Inv.row {db : Db} (h : Inv db) {id : Uuid} {row : ResponseAction}
    (hrow : db.actions.committed id = some row) :
    RowInv row (db.trail id) (db.claimedBy id) (db.effects.count id)
      fun userId => (id, userId) ∈ db.revoked := by
  simpa only [IdInv, hrow] using h id

theorem Inv.absent {db : Db} (h : Inv db) {id : Uuid}
    (hrow : db.actions.committed id = none) :
    AbsentInv (db.trail id) (db.claimedBy id) (db.effects.count id)
      fun userId => (id, userId) ∈ db.revoked := by
  simpa only [IdInv, hrow] using h id

theorem inv_empty : Inv .empty := fun _ => ⟨rfl, rfl, rfl, by simp [Db.empty]⟩

inductive Phase where
  | idle
  | inserting
  | locked (id : Uuid) (row : ResponseAction)
  | changed (id : Uuid) (row row' : ResponseAction)
  | owner (id : Uuid) (row : ResponseAction)
  | acted (id : Uuid) (row : ResponseAction)
  | failing (id : Uuid) (row : ResponseAction)

def Owned (t : Nat) (id : Uuid) (row : ResponseAction) (db : Db) : Prop :=
  db.actions.committed id = some row ∧ row.status = .running ∧ db.claimedBy id = some t

def Phase.holds (t : Nat) : Phase → Db → Prop
  | .idle, db => db.actions.NoLocks t ∧ db.revoking t = []
  | .inserting, db =>
      (∀ id row, db.actions.lock id = some (t, row) →
        db.actions.committed id = none ∧ row.status = .proposed) ∧ db.revoking t = []
  | .locked id row, db =>
      db.actions.lock id = some (t, row) ∧ db.actions.committed id = some row ∧
        db.actions.OnlyLock t id ∧ db.revoking t = []
  | .changed id row row', db =>
      db.actions.lock id = some (t, row') ∧ db.actions.committed id = some row ∧
        db.actions.OnlyLock t id ∧ Moves row.status row'.status ∧
        (∀ userId, Revokes row' userId ↔ Revokes row userId) ∧
        (row.status = .running → db.claimedBy id = some t) ∧
        (row'.status = .succeeded → Resolved row') ∧
        ∀ id' userId, (id', userId) ∈ db.revoking t ↔
          id' = id ∧ row'.status = .succeeded ∧ Revokes row' userId
  | .owner id row, db =>
      db.actions.NoLocks t ∧ Owned t id row db ∧ db.effects.count id = 0 ∧ db.revoking t = []
  | .acted id row, db =>
      db.actions.NoLocks t ∧ Owned t id row db ∧ Resolved row ∧
        ∀ id' userId, (id', userId) ∈ db.revoking t ↔ id' = id ∧ Revokes row userId
  | .failing id row, db => db.actions.NoLocks t ∧ Owned t id row db ∧ db.revoking t = []

def SameTarget (row row' : ResponseAction) : Prop :=
  row'.actionType = row.actionType ∧ row'.target = row.target

def Phase.allowed : Phase → Stmt → Prop
  | φ, .insertAction row => φ = .idle ∧ row.status = .proposed
  | φ, .getForUpdate _ => φ = .idle
  | φ, .claim _ _ => φ = .idle
  | .locked id row, .write id' f =>
      id' = id ∧ row.status = .proposed ∧ Moves .proposed (f row).status ∧ SameTarget row (f row)
  | .acted id row, .write id' f =>
      id' = id ∧ (f row).status = .succeeded ∧ SameTarget row (f row)
  | .failing id row, .write id' f =>
      id' = id ∧ (f row).status = .failed ∧ SameTarget row (f row)
  | _, .write _ _ => False
  | φ, .revokeUser id userId => ∃ row, φ = .owner id row ∧ Revokes row userId
  | φ, .executeAwsAction id =>
      ∃ row, φ = .owner id row ∧ row.actionType ≠ .revokeAppSessions
  | φ, .commit => φ = .idle ∨ φ = .inserting ∨ ∃ id row row', φ = .changed id row row'
  | φ, .rollback =>
      φ = .idle ∨ ∃ id row, φ = .owner id row ∨ φ = .acted id row ∨ φ = .failing id row
  | _, _ => True

def Phase.afterWrite (f : ResponseAction → ResponseAction) : Phase → Phase
  | .locked id row => .changed id row (f row)
  | .acted id row => .changed id row (f row)
  | .failing id row => .changed id row (f row)
  | φ => φ

def Phase.afterEffect (ok : Bool) : Phase → Phase
  | .owner id row => if ok then .acted id row else .failing id row
  | φ => φ

def Phase.afterCommit : Phase → Phase
  | .changed id _ row' => if row'.status = .running then .owner id row' else .idle
  | _ => .idle

def Phase.afterRollback : Phase → Phase
  | .owner id row => .failing id row
  | .acted id row => .failing id row
  | .failing id row => .failing id row
  | _ => .idle

def Phase.next (φ : Phase) : (q : Stmt) → Result q → Phase → Prop
  | .insertAction _, _, ψ => ψ = .inserting
  | .getForUpdate id, some row, ψ => ψ = .locked id row
  | .claim id now, some row', ψ =>
      ∃ row, row.status = .approved ∧ row' = claimed now row ∧ ψ = .changed id row row'
  | .write _ f, _, ψ => ψ = φ.afterWrite f
  | .revokeUser _ _, .ok _, ψ => ψ = φ.afterEffect true
  | .revokeUser _ _, .error _, ψ => ψ = φ.afterEffect false
  | .executeAwsAction _, .ok _, ψ => ψ = φ.afterEffect true
  | .executeAwsAction _, .error _, ψ => ψ = φ.afterEffect false
  | .commit, _, ψ => ψ = φ.afterCommit
  | .rollback, _, ψ => ψ = φ.afterRollback
  | _, _, ψ => ψ = φ

def typestate (settings : Settings) : Typestate (machine settings) where
  Phase := Phase
  init := .idle
  allowed := Phase.allowed
  next := Phase.next
  holds := Phase.holds
  inv := Inv

section Programs

variable (settings : Settings)

def ToIdle (φ : Phase) (p : Proc Unit) : Prop :=
  (typestate settings).Follows φ p fun _ ψ => ψ = Phase.idle

theorem follows_raise {α : Type} (φ : Phase) (Q : α → Phase → Prop) :
    (typestate settings).Follows φ (raise : Proc α) Q :=
  ⟨trivial, nofun⟩

theorem proposeAction_toIdle (incidentId actorId : Uuid) (payload : ResponseActionCreate) :
    ToIdle settings .idle (proposeAction incidentId actorId payload) := by
  refine Typestate.Follows.call (by trivial) ?_
  rintro reads _ rfl
  refine Typestate.Follows.call (by trivial) ?_
  rintro now _ rfl
  rcases hrow : propose reads incidentId payload actorId now with e | ⟨row, _ | _⟩
  · exact follows_raise settings _ _
  · exact Typestate.Follows.last (.inl rfl) (by rintro _ _ rfl; rfl)
  · have hnew := propose_new_status hrow
    refine Typestate.Follows.call ⟨rfl, by rw [hnew]; rfl⟩ ?_
    rintro _ _ rfl
    exact Typestate.Follows.last (.inr (.inl rfl)) (by rintro _ _ rfl; rfl)

theorem decideAction_toIdle (id actorId : Uuid) (approve : Bool) :
    ToIdle settings .idle (decideAction settings id actorId approve) := by
  refine Typestate.Follows.call rfl ?_
  rintro (_ | action) _ hψ
  · exact follows_raise settings _ _
  · obtain rfl : _ = Phase.locked id action := hψ
    refine Typestate.Follows.call (by trivial) ?_
    rintro now _ rfl
    rcases hrow : ResponseActions.decide settings action actorId approve now with e | row
    · exact follows_raise settings _ _
    · obtain ⟨hstatus, _, _, hrow⟩ := decide_ok_iff.mp hrow
      have hmoves : Moves .proposed row.status := by
        rw [hrow]
        cases approve
        · exact .reject
        · exact .approve
      have hidle : Phase.afterCommit (.changed id action row) = .idle := by
        rw [hrow]
        cases approve <;> rfl
      refine Typestate.Follows.call ⟨rfl, hstatus, hmoves, by rw [hrow], by rw [hrow]⟩ ?_
      rintro _ _ rfl
      refine Typestate.Follows.call (.inr (.inr ⟨_, _, _, rfl⟩)) ?_
      rintro _ _ rfl
      cases approve
      · exact hidle
      · exact Typestate.Follows.last trivial (by rintro _ _ rfl; exact hidle)

theorem sideEffect_follows (id : Uuid) (action : ResponseAction) :
    (typestate settings).Follows (Phase.owner id action) (sideEffect id action)
      fun outcome ψ =>
        match outcome with
        | .ok _ => ψ = Phase.acted id action
        | .error _ => ψ = Phase.owner id action ∨ ψ = Phase.failing id action := by
  unfold sideEffect
  split
  · rename_i htype
    cases htarget : PyStr.uuid action.target with
    | none => exact .inl rfl
    | some userId =>
        refine Typestate.Follows.call trivial ?_
        rintro (_ | _) _ rfl
        · exact .inl rfl
        · refine Typestate.Follows.call ⟨action, rfl, htype, htarget⟩ ?_
          rintro (error | _) _ rfl
          · exact .inr rfl
          · exact rfl
  · rename_i htype
    refine Typestate.Follows.call ⟨action, rfl, htype⟩ ?_
    rintro (error | requestId) _ rfl
    · exact .inr rfl
    · exact rfl

theorem finishAction_ok_toIdle (id : Uuid) (action : ResponseAction) (outcome : ActionResult) :
    ToIdle settings (.acted id action) (finishAction id (.ok outcome)) := by
  refine Typestate.Follows.call trivial ?_
  rintro now _ rfl
  refine Typestate.Follows.call ⟨rfl, rfl, rfl, rfl⟩ ?_
  rintro _ _ rfl
  exact Typestate.Follows.last (.inr (.inr ⟨_, _, _, rfl⟩)) (by rintro _ _ rfl; rfl)

theorem finishAction_error_toIdle {φ : Phase} (id : Uuid) (action : ResponseAction)
    (error : String) (hφ : φ = .owner id action ∨ φ = .failing id action) :
    ToIdle settings φ (finishAction id (.error error)) := by
  have hallowed : Phase.allowed φ .rollback := by
    rcases hφ with rfl | rfl
    · exact .inr ⟨_, _, .inl rfl⟩
    · exact .inr ⟨_, _, .inr (.inr rfl)⟩
  have hfailing : φ.afterRollback = .failing id action := by
    rcases hφ with rfl | rfl <;> rfl
  refine Typestate.Follows.call hallowed ?_
  intro _ ψ hψ
  obtain rfl : ψ = .failing id action := Eq.trans hψ hfailing
  refine Typestate.Follows.call trivial ?_
  rintro (_ | _) _ rfl
  · exact follows_raise settings _ _
  · refine Typestate.Follows.call trivial ?_
    rintro now _ rfl
    refine Typestate.Follows.call ⟨rfl, rfl, rfl, rfl⟩ ?_
    rintro _ _ rfl
    exact Typestate.Follows.last (.inr (.inr ⟨_, _, _, rfl⟩)) (by rintro _ _ rfl; rfl)

theorem executeAction_toIdle (id : Uuid) : ToIdle settings .idle (executeAction id) := by
  refine Typestate.Follows.call trivial ?_
  rintro now _ rfl
  refine Typestate.Follows.call rfl ?_
  rintro (_ | action) _ hψ
  · obtain rfl : _ = Phase.idle := hψ
    exact Typestate.Follows.last (.inl rfl) (by rintro _ _ rfl; rfl)
  · obtain ⟨row, _, haction, rfl⟩ := hψ
    refine Typestate.Follows.call (.inr (.inr ⟨_, _, _, rfl⟩)) ?_
    intro _ ψ hψ
    have hrunning : action.status = .running := by rw [haction]; rfl
    obtain rfl : ψ = .owner id action := Eq.trans hψ (if_pos hrunning)
    refine (sideEffect_follows settings id action).bind ?_
    rintro (error | outcome) ψ hψ
    · exact finishAction_error_toIdle settings id action error hψ
    · obtain rfl : ψ = Phase.acted id action := hψ
      exact finishAction_ok_toIdle settings id action outcome

theorem executeAll_toIdle (ids : List Uuid) : ToIdle settings .idle (executeAll ids) := by
  induction ids with
  | nil => rfl
  | cons id ids ih =>
      refine (executeAction_toIdle settings id).bind ?_
      rintro _ _ rfl
      exact ih

theorem runWorker_toIdle (recover : Bool) : ToIdle settings .idle (runWorker recover) := by
  have hpop : ∀ {f : Option Uuid → Proc Unit}, f none = pure () →
      (∀ id, f (some id) = executeAction id) → ToIdle settings .idle (call .lpop >>= f) := by
    intro f hnone hsome
    refine Typestate.Follows.call trivial ?_
    rintro (_ | id) _ rfl
    · rw [hnone]
      rfl
    · rw [hsome]
      exact executeAction_toIdle settings id
  cases recover with
  | false => exact hpop rfl fun _ => rfl
  | true =>
      refine Typestate.Follows.call trivial ?_
      rintro pending _ rfl
      refine Typestate.Follows.call (.inl rfl) ?_
      rintro _ _ rfl
      refine (executeAll_toIdle settings pending).bind ?_
      rintro _ _ rfl
      exact hpop rfl fun _ => rfl

theorem body_follows (c : Call) :
    (typestate settings).Follows Phase.idle (body settings c) fun _ _ => True := by
  have hbody : ToIdle settings .idle (body settings c) := by
    cases c with
    | propose incidentId actorId payload =>
        exact proposeAction_toIdle settings incidentId actorId payload
    | decide id actorId approve => exact decideAction_toIdle settings id actorId approve
    | worker recover => exact runWorker_toIdle settings recover
    | deliver id => exact executeAction_toIdle settings id
    | lose =>
        refine Typestate.Follows.call trivial ?_
        rintro _ _ rfl
        rfl
  exact hbody.mono fun _ _ _ => trivial

end Programs

end ResponseActions
