import AiSoc.Auth.Service
import Mathlib.Data.List.Nodup

namespace Auth

open Permissions (Uuid Timestamp)
open RowStore Process
open Transition (anyStep execAll execWhile run_of_execAll run_of_execWhile)

namespace Administrators

def ActiveAdmin (db : Db) (id : Uuid) : Prop :=
  ∃ user, db.users.committed id = some user ∧ isActiveAdmin user = true

def HasActiveAdmin (db : Db) : Prop :=
  ∃ id, ActiveAdmin db id

structure Inv (db : Db) : Prop where
  nodup : db.users.keys.Nodup
  known : ∀ id user, db.users.Version id user → id ∈ db.users.keys
  admin : HasActiveAdmin db
  counted : ∀ t, db.counted t = true →
    ∃ id id', id ≠ id' ∧ ActiveAdmin db id ∧ ActiveAdmin db id'

inductive Phase where
  | idle
  | checked
  | guarded (id : Uuid)
  | unchecked

def Phase.holds (t : Nat) : Phase → Db → Prop
  | .idle, db => db.users.NoLocks t ∧ db.counted t = false
  | .checked, db => db.users.NoLocks t
  | .guarded id, db => db.users.OnlyLock t id
  | .unchecked, db => db.counted t = false

def Phase.allowed : Phase → Stmt → Prop
  | φ, .activeAdminCount => φ = .idle
  | φ, .insertUser _ => φ = .idle ∨ φ = .unchecked
  | φ, .writeUser _ _ => φ = .idle ∨ φ = .checked ∨ φ = .unchecked
  | _, _ => True

def Phase.afterWrite (id : Uuid) : Phase → Phase
  | .checked => .guarded id
  | _ => .unchecked

def Phase.next (φ : Phase) : (q : Stmt) → Result q → Phase → Prop
  | .activeAdminCount, _, ψ => ψ = .checked
  | .insertUser _, _, ψ => ψ = .unchecked
  | .writeUser id _, _, ψ => ψ = φ.afterWrite id
  | .commit, _, ψ => ψ = .idle
  | .rollback, _, ψ => ψ = .idle
  | _, _, ψ => ψ = φ

def typestate (env : Env) : Typestate (machine env) where
  Phase := Phase
  init := .idle
  allowed := Phase.allowed
  next := Phase.next
  holds := Phase.holds
  inv := Inv

section Programs

variable (env : Env)

def Safe {α : Type} (φ : Phase) (p : Proc α) : Prop :=
  (typestate env).Follows φ p fun _ _ => True

def Quiet {α : Type} (p : Proc α) : Prop :=
  ∀ φ, (typestate env).Follows φ p fun _ ψ => ψ = φ

def Bulk {α : Type} (p : Proc α) : Prop :=
  ∀ φ, φ = Phase.idle ∨ φ = .unchecked →
    (typestate env).Follows φ p fun _ ψ => ψ = Phase.idle ∨ ψ = .unchecked

theorem Quiet.bulk {env : Env} {α : Type} {p : Proc α} (h : Quiet env p) : Bulk env p :=
  fun φ hφ => (h φ).mono fun _ _ hψ => hψ ▸ hφ

theorem Bulk.bind {env : Env} {α β : Type} {p : Proc α} {f : α → Proc β} (h : Bulk env p)
    (hf : ∀ a, Bulk env (f a)) : Bulk env (p >>= f) :=
  fun φ hφ => (h φ hφ).bind fun a ψ hψ => hf a ψ hψ

theorem Quiet.bind {env : Env} {α β : Type} {p : Proc α} {f : α → Proc β} (h : Quiet env p)
    (hf : ∀ a, Quiet env (f a)) : Quiet env (p >>= f) := by
  intro φ
  refine (h φ).bind ?_
  rintro a _ rfl
  exact hf a _

theorem quiet_return {α : Type} (a : α) : Quiet env (return a : Proc α) := fun _ => rfl

def Stmt.quiet : Stmt → Bool
  | .activeAdminCount | .insertUser _ | .writeUser _ _ | .commit | .rollback => false
  | _ => true

theorem quiet_call {q : Stmt} (hq : Stmt.quiet q = true) : Quiet env (call q) := by
  intro φ
  cases q <;> first
    | exact Typestate.Follows.last trivial (by rintro _ _ rfl; rfl)
    | cases hq

theorem bulk_insertUser (row : User) : Bulk env (call (.insertUser row)) :=
  fun _ hφ => Typestate.Follows.last hφ (by rintro _ _ rfl; exact .inr rfl)

theorem bulk_writeUser (id : Uuid) (f : User → User) : Bulk env (call (.writeUser id f)) := by
  intro φ hφ
  refine Typestate.Follows.last (by rcases hφ with rfl | rfl <;> simp [typestate, Phase.allowed]) ?_
  rintro _ _ rfl
  rcases hφ with rfl | rfl <;> exact .inr rfl

theorem bulk_commit : Bulk env (call .commit) :=
  fun _ _ => Typestate.Follows.last trivial (by rintro _ _ rfl; exact .inl rfl)

theorem bulk_rollback : Bulk env (call .rollback) :=
  fun _ _ => Typestate.Follows.last trivial (by rintro _ _ rfl; exact .inl rfl)

theorem commit_return {α : Type} (a : α) : Bulk env (do call .commit; return a) :=
  (bulk_commit env).bind fun _ => (quiet_return env a).bulk

theorem quiet_revokeRows (target : Target) (now : Timestamp) (ids : List Uuid) :
    Quiet env (revokeRows target now ids) := by
  induction ids with
  | nil => exact quiet_return env ()
  | cons id ids ih => exact (quiet_call env rfl).bind fun _ => ih

theorem quiet_revoke (target : Target) : Quiet env (revoke target) :=
  (quiet_call env rfl).bind fun _ => (quiet_call env rfl).bind fun _ =>
    quiet_revokeRows env target _ _

theorem quiet_createAccessToken (userId familyId : Uuid) :
    Quiet env (createAccessToken userId familyId) :=
  (quiet_call env rfl).bind fun _ => quiet_return env _

theorem quiet_newSession (user : User) : Quiet env (newSession env user) :=
  (quiet_call env rfl).bind fun _ => (quiet_call env rfl).bind fun _ =>
    (quiet_call env rfl).bind fun _ => (quiet_call env rfl).bind fun _ =>
      (quiet_call env rfl).bind fun _ => (quiet_createAccessToken env _ _).bind fun _ =>
        quiet_return env _

theorem bulk_login (email password : String) : Bulk env (login env email password) := by
  refine (quiet_call env rfl).bulk.bind fun limited => ?_
  cases limited with
  | true => exact commit_return env _
  | false =>
      refine (quiet_call env rfl).bulk.bind fun found => ?_
      cases found with
      | none => exact commit_return env _
      | some user =>
          dsimp only
          split
          · exact commit_return env _
          · refine (quiet_newSession env user).bulk.bind fun result => ?_
            refine (quiet_call env rfl).bulk.bind fun now => ?_
            exact (bulk_writeUser env _ _).bind fun _ => commit_return env _

theorem bulk_register (email fullName password : String) :
    Bulk env (register env email fullName password) := by
  refine (quiet_call env rfl).bulk.bind fun limited => ?_
  cases limited with
  | true => exact commit_return env _
  | false =>
      refine (quiet_call env rfl).bulk.bind fun found => ?_
      cases found with
      | some user => exact commit_return env _
      | none =>
          refine (quiet_call env rfl).bulk.bind fun id => ?_
          refine (quiet_call env rfl).bulk.bind fun createdAt => ?_
          refine (bulk_insertUser env _).bind fun _ => ?_
          refine (quiet_call env rfl).bulk.bind fun now => ?_
          refine (bulk_writeUser env _ _).bind fun _ => ?_
          exact (quiet_newSession env _).bulk.bind fun _ => commit_return env _

theorem bulk_rejectRefresh : Bulk env rejectRefresh := commit_return env _

theorem bulk_revoke_rejects (target : Target) : Bulk env (do revoke target; rejectRefresh) :=
  (quiet_revoke env target).bulk.bind fun _ => bulk_rejectRefresh env

theorem bulk_rotate (authSession : AuthSession) (user : User) (now : Timestamp) :
    Bulk env (rotate env authSession user now) :=
  (quiet_call env rfl).bulk.bind fun _ => (quiet_call env rfl).bulk.bind fun _ =>
    (quiet_call env rfl).bulk.bind fun _ => (quiet_call env rfl).bulk.bind fun _ =>
      (quiet_createAccessToken env _ _).bulk.bind fun _ => commit_return env _

theorem bulk_refreshLocked (authSession : AuthSession) :
    Bulk env (refreshLocked env authSession) := by
  unfold refreshLocked
  split
  · exact bulk_revoke_rejects env _
  · refine (quiet_call env rfl).bulk.bind fun now => ?_
    refine (quiet_call env rfl).bulk.bind fun found => ?_
    cases found with
    | none => exact bulk_revoke_rejects env _
    | some user =>
        dsimp only
        split
        · exact bulk_revoke_rejects env _
        · exact bulk_rotate env authSession user now

theorem bulk_refresh (refreshToken : String) : Bulk env (refresh env refreshToken) := by
  unfold refresh
  split
  · exact bulk_rejectRefresh env
  · refine (quiet_call env rfl).bulk.bind fun found => ?_
    cases found with
    | none => exact bulk_rejectRefresh env
    | some authSession =>
        simp only [refreshFound]
        split
        · exact bulk_rejectRefresh env
        · exact bulk_refreshLocked env authSession

theorem quiet_revokeFamilyOf (refreshToken : String) :
    Quiet env (revokeFamilyOf env refreshToken) := by
  unfold revokeFamilyOf
  split
  · exact quiet_return env ()
  · refine (quiet_call env rfl).bind fun found => ?_
    cases found with
    | none => exact quiet_return env ()
    | some authSession =>
        dsimp only
        split
        · exact quiet_revoke env _
        · exact quiet_return env ()

theorem bulk_changePassword (userId : Uuid) (currentPassword newPassword : String) :
    Bulk env (changePassword env userId currentPassword newPassword) := by
  refine (quiet_call env rfl).bulk.bind fun found => ?_
  cases found with
  | none => exact (quiet_return env _).bulk
  | some user =>
      dsimp only
      split
      · exact commit_return env _
      · refine (quiet_call env rfl).bulk.bind fun now => ?_
        refine (bulk_writeUser env _ _).bind fun _ => ?_
        exact (quiet_revoke env _).bulk.bind fun _ => commit_return env _

theorem quiet_findUser (target : String) : Quiet env (findUser target) := by
  unfold findUser
  split
  · exact quiet_call env rfl
  · refine (quiet_call env rfl).bind fun found => ?_
    cases found with
    | none => exact quiet_call env rfl
    | some user => exact quiet_return env _

-- the text parser under it is never evaluated from here on
attribute [local irreducible] findUser

theorem bulk_setActive (user : User) (active : Bool) : Bulk env (setActive user active) := by
  unfold setActive
  split
  · exact (quiet_return env ()).bulk
  · exact bulk_writeUser env _ _

theorem bulk_executeRevokeSessions (target : String) :
    Bulk env (executeRevokeSessions target) := by
  unfold executeRevokeSessions
  refine (quiet_call env rfl).bulk.bind fun executedAt => ?_
  refine (quiet_findUser env target).bulk.bind fun found => ?_
  cases found with
  | none => exact (quiet_return env ()).bulk
  | some user => exact (quiet_revoke env _).bulk.bind fun _ => bulk_writeUser env _ _

theorem bulk_executeDisableUser (target : String) : Bulk env (executeDisableUser target) := by
  unfold executeDisableUser
  refine (quiet_call env rfl).bulk.bind fun executedAt => ?_
  refine (quiet_findUser env target).bulk.bind fun found => ?_
  cases found with
  | none => exact (quiet_return env ()).bulk
  | some user =>
      refine (bulk_setActive env user false).bind fun _ => ?_
      exact (quiet_revoke env _).bulk.bind fun _ => bulk_writeUser env _ _

theorem bulk_executeAll (actions : List Containment) : Bulk env (executeAll actions) := by
  induction actions with
  | nil => exact (quiet_return env ()).bulk
  | cons action actions ih =>
      cases action with
      | revokeSessions target => exact (bulk_executeRevokeSessions env target).bind fun _ => ih
      | disableUser target => exact (bulk_executeDisableUser env target).bind fun _ => ih

theorem bulk_executeActions (actions : List Containment) :
    Bulk env (executeActions actions) :=
  (bulk_executeAll env actions).bind fun _ => commit_return env _

theorem bulk_rollbackDisableUser (target : String) (wasActive : Bool) :
    Bulk env (rollbackDisableUser target wasActive) := by
  unfold rollbackDisableUser
  refine (quiet_findUser env target).bulk.bind fun found => ?_
  cases found with
  | none => exact (quiet_return env _).bulk
  | some user => exact (bulk_setActive env user wasActive).bind fun _ => commit_return env _

theorem bulk_revokeAppSessions (userId : Uuid) : Bulk env (revokeAppSessions userId) := by
  refine (quiet_call env rfl).bulk.bind fun found => ?_
  cases found with
  | none => exact (bulk_rollback env).bind fun _ => commit_return env _
  | some user => exact (quiet_revoke env _).bulk.bind fun _ => commit_return env _

theorem revokeIf_commit_safe (φ : Phase) (needed : Bool) (target : Target) :
    Safe env φ (do revokeIf needed target; call .commit; return Outcome.completed) := by
  have hcommit : Safe env φ (do call .commit; return Outcome.completed) :=
    ⟨trivial, fun _ _ _ => trivial⟩
  cases needed with
  | false => exact hcommit
  | true =>
      refine (quiet_revoke env target φ).bind ?_
      rintro _ _ rfl
      exact hcommit

theorem update_safe (userId : Uuid) (payload : UserUpdate) :
    Safe env .idle (update userId payload) := by
  refine Typestate.Follows.call trivial ?_
  rintro (_ | user) _ rfl
  · exact trivial
  · have hcount : (typestate env).Follows Phase.idle (removesLastAdmin payload user)
        fun _ ψ => ψ = Phase.idle ∨ ψ = .checked := by
      unfold removesLastAdmin
      split
      · refine Typestate.Follows.call rfl ?_
        rintro count _ rfl
        exact .inr rfl
      · exact .inl rfl
    refine hcount.bind fun last ψ hψ => ?_
    cases last with
    | true => exact trivial
    | false =>
        refine Typestate.Follows.call trivial ?_
        rintro now _ rfl
        refine Typestate.Follows.call (hψ.elim .inl fun h => .inr (.inl h)) ?_
        rintro _ _ rfl
        exact revokeIf_commit_safe env _ _ _

theorem body_safe (c : Call) : Safe env .idle (body env c) := by
  have hsafe : ∀ {p : Proc Outcome}, Bulk env p → Safe env .idle p :=
    fun h => (h .idle (.inl rfl)).mono fun _ _ _ => trivial
  cases c with
  | login email password => exact hsafe (bulk_login env email password)
  | register email fullName password => exact hsafe (bulk_register env email fullName password)
  | refresh refreshToken => exact hsafe (bulk_refresh env refreshToken)
  | logout refreshToken =>
      exact hsafe ((quiet_revokeFamilyOf env refreshToken).bulk.bind fun _ => commit_return env _)
  | changePassword userId currentPassword newPassword =>
      exact hsafe (bulk_changePassword env userId currentPassword newPassword)
  | update userId payload => exact update_safe env userId payload
  | executeActions actions => exact hsafe (bulk_executeActions env actions)
  | rollbackDisableUser target wasActive =>
      exact hsafe (bulk_rollbackDisableUser env target wasActive)
  | revokeAppSessions userId => exact hsafe (bulk_revokeAppSessions env userId)

end Programs

end Administrators

end Auth
