import AiSoc.Auth.Soundness
import AiSoc.Library.Apart

namespace Auth

open Permissions (Uuid Timestamp)
open RowStore Process

namespace Families

inductive Stage where
  | fresh (owned : List Uuid)
  | rotating (id : Uuid)
  | finished (id : Uuid)
  | ended

namespace Stage

def owned : Stage → List Uuid
  | .fresh owned => owned
  | _ => []

def drawn (n : Uuid) : Stage → Stage
  | .fresh owned => .fresh (n :: owned)
  | .rotating id => .rotating id
  | _ => .ended

def inserted : Stage → Stage
  | .fresh _ => .fresh []
  | .rotating id => .rotating id
  | _ => .ended

def committed : Stage → Stage
  | .fresh owned => .fresh owned
  | .rotating id => .finished id
  | _ => .ended

def rolledBack : Stage → Stage
  | .fresh owned => .fresh owned
  | _ => .ended

def kept : Stage → Stage
  | .fresh owned => .fresh owned
  | .rotating id => .rotating id
  | _ => .ended

def allowed : Stage → Stmt → Prop
  | .fresh owned, .insertSession row => row.familyId ∈ owned
  | .rotating _, .insertSession _ => True
  | _, .insertSession _ => False
  | .fresh _, .rotateSession _ _ _ => True
  | _, .rotateSession _ _ _ => False
  | _, _ => True

def next (σ : Stage) : (q : Stmt) → Result q → Stage → Prop
  | .uuid4, n, τ => τ = σ.drawn n
  | .getSessionForUpdate id, some row, τ => τ = σ.kept ∧ row.id = id
  | .insertSession _, _, τ => τ = σ.inserted
  | .rotateSession id _ _, _, τ => τ = .rotating id
  | .commit, _, τ => τ = σ.committed
  | .rollback, _, τ => τ = σ.rolledBack
  | _, _, τ => τ = σ.kept

end Stage

def post : Call → Outcome → Stage → Prop
  | .refresh refreshToken, .authenticated _, σ =>
      ∃ id secret, parseRefreshToken refreshToken = some (id, secret) ∧ σ = .finished id
  | _, _, _ => True

def stages (env : Env) : Typestate (machine env) where
  Phase := Stage
  init := .fresh []
  allowed := Stage.allowed
  next := Stage.next
  holds _ _ _ := True
  inv _ := True

section Programs

variable (env : Env)

def Plain {α : Type} (p : Proc α) : Prop :=
  ∀ owned, (stages env).Follows (.fresh owned) p fun _ σ => ∃ owned', σ = Stage.fresh owned'

theorem Plain.bind {env : Env} {α β : Type} {p : Proc α} {f : α → Proc β} (h : Plain env p)
    (hf : ∀ a, Plain env (f a)) : Plain env (p >>= f) := by
  intro owned
  refine (h owned).bind ?_
  rintro a _ ⟨owned', rfl⟩
  exact hf a owned'

theorem plain_return {α : Type} (a : α) : Plain env (return a : Proc α) :=
  fun owned => ⟨owned, rfl⟩

def plainStmt : Stmt → Bool
  | .insertSession _ | .rotateSession _ _ _ => false
  | _ => true

theorem plain_call {q : Stmt} (hq : plainStmt q = true) : Plain env (call q) := by
  intro owned
  cases q with
  | insertSession | rotateSession => cases hq
  | getSessionForUpdate id =>
      refine Typestate.Follows.last trivial ?_
      rintro (_ | row) τ hτ
      · exact ⟨owned, hτ⟩
      · exact ⟨owned, hτ.1⟩
  | uuid4 =>
      refine Typestate.Follows.last trivial ?_
      rintro n _ rfl
      exact ⟨n :: owned, rfl⟩
  | _ =>
      refine Typestate.Follows.last trivial ?_
      rintro _ _ rfl
      exact ⟨owned, rfl⟩

theorem plain_commit (out : Outcome) : Plain env (do call .commit; return out) :=
  (plain_call env rfl).bind fun _ => plain_return env out

theorem plain_revokeRows (target : Target) (now : Timestamp) (ids : List Uuid) :
    Plain env (revokeRows target now ids) := by
  induction ids with
  | nil => exact plain_return env ()
  | cons id ids ih => exact (plain_call env rfl).bind fun _ => ih

theorem plain_revoke (target : Target) : Plain env (revoke target) :=
  (plain_call env rfl).bind fun _ => (plain_call env rfl).bind fun _ =>
    plain_revokeRows env target _ _

theorem plain_revokeFamilyOf (refreshToken : String) :
    Plain env (revokeFamilyOf env refreshToken) := by
  unfold revokeFamilyOf
  split
  · exact plain_return env ()
  · refine (plain_call env rfl).bind fun found => ?_
    cases found with
    | none => exact plain_return env ()
    | some authSession =>
        dsimp only
        split
        · exact plain_revoke env _
        · exact plain_return env ()

theorem plain_changePassword (userId : Uuid) (currentPassword newPassword : String) :
    Plain env (changePassword env userId currentPassword newPassword) := by
  refine (plain_call env rfl).bind fun found => ?_
  cases found with
  | none => exact plain_return env _
  | some user =>
      dsimp only
      split
      · exact plain_commit env _
      · refine (plain_call env rfl).bind fun now => ?_
        refine (plain_call env rfl).bind fun _ => ?_
        exact (plain_revoke env _).bind fun _ => plain_commit env _

theorem plain_update (userId : Uuid) (payload : UserUpdate) : Plain env (update userId payload) := by
  refine (plain_call env rfl).bind fun found => ?_
  cases found with
  | none => exact plain_return env _
  | some user =>
      have hlast : Plain env (removesLastAdmin payload user) := by
        unfold removesLastAdmin
        split
        · exact (plain_call env rfl).bind fun _ => plain_return env _
        · exact plain_return env _
      refine hlast.bind fun last => ?_
      cases last with
      | true => exact plain_return env _
      | false =>
          refine (plain_call env rfl).bind fun now => ?_
          refine (plain_call env rfl).bind fun _ => ?_
          have hrevoke : Plain env (revokeIf (revokesSessions payload) (.user userId)) := by
            unfold revokeIf
            split
            · exact plain_revoke env _
            · exact plain_return env ()
          exact hrevoke.bind fun _ => plain_commit env _

theorem plain_findUser (target : String) : Plain env (findUser target) := by
  unfold findUser
  split
  · exact plain_call env rfl
  · refine (plain_call env rfl).bind fun found => ?_
    cases found with
    | none => exact plain_call env rfl
    | some user => exact plain_return env _

-- the text parser under it is never evaluated from here on
attribute [local irreducible] findUser

theorem plain_setActive (user : User) (active : Bool) : Plain env (setActive user active) := by
  unfold setActive
  split
  · exact plain_return env ()
  · exact plain_call env rfl

theorem plain_executeRevokeSessions (target : String) :
    Plain env (executeRevokeSessions target) := by
  unfold executeRevokeSessions
  refine (plain_call env rfl).bind fun executedAt => ?_
  refine (plain_findUser env target).bind fun found => ?_
  cases found with
  | none => exact plain_return env ()
  | some user => exact (plain_revoke env _).bind fun _ => plain_call env rfl

theorem plain_executeDisableUser (target : String) : Plain env (executeDisableUser target) := by
  unfold executeDisableUser
  refine (plain_call env rfl).bind fun executedAt => ?_
  refine (plain_findUser env target).bind fun found => ?_
  cases found with
  | none => exact plain_return env ()
  | some user =>
      refine (plain_setActive env user false).bind fun _ => ?_
      exact (plain_revoke env _).bind fun _ => plain_call env rfl

theorem plain_executeAll (actions : List Containment) : Plain env (executeAll actions) := by
  induction actions with
  | nil => exact plain_return env ()
  | cons action actions ih =>
      cases action with
      | revokeSessions target => exact (plain_executeRevokeSessions env target).bind fun _ => ih
      | disableUser target => exact (plain_executeDisableUser env target).bind fun _ => ih

theorem plain_rollbackDisableUser (target : String) (wasActive : Bool) :
    Plain env (rollbackDisableUser target wasActive) := by
  unfold rollbackDisableUser
  refine (plain_findUser env target).bind fun found => ?_
  cases found with
  | none => exact plain_return env _
  | some user => exact (plain_setActive env user wasActive).bind fun _ => plain_commit env _

theorem plain_revokeAppSessions (userId : Uuid) : Plain env (revokeAppSessions userId) := by
  refine (plain_call env rfl).bind fun found => ?_
  cases found with
  | none => exact (plain_call env rfl).bind fun _ => plain_commit env _
  | some user => exact (plain_revoke env _).bind fun _ => plain_commit env _

theorem plain_newSession (user : User) : Plain env (newSession env user) := by
  intro owned
  refine Typestate.Follows.call trivial ?_
  rintro sessionId _ rfl
  refine Typestate.Follows.call trivial ?_
  rintro familyId _ rfl
  refine Typestate.Follows.call trivial ?_
  rintro secret _ rfl
  refine Typestate.Follows.call trivial ?_
  rintro now _ rfl
  refine Typestate.Follows.call List.mem_cons_self ?_
  rintro _ _ rfl
  refine Typestate.Follows.call trivial ?_
  rintro issuedAt _ rfl
  exact ⟨[], rfl⟩

theorem plain_login (email password : String) : Plain env (login env email password) := by
  refine (plain_call env rfl).bind fun limited => ?_
  cases limited with
  | true => exact plain_commit env _
  | false =>
      refine (plain_call env rfl).bind fun found => ?_
      cases found with
      | none => exact plain_commit env _
      | some user =>
          dsimp only
          split
          · exact plain_commit env _
          · refine (plain_newSession env user).bind fun result => ?_
            refine (plain_call env rfl).bind fun now => ?_
            exact (plain_call env rfl).bind fun _ => plain_commit env _

theorem plain_register (email fullName password : String) :
    Plain env (register env email fullName password) := by
  refine (plain_call env rfl).bind fun limited => ?_
  cases limited with
  | true => exact plain_commit env _
  | false =>
      refine (plain_call env rfl).bind fun found => ?_
      cases found with
      | some user => exact plain_commit env _
      | none =>
          refine (plain_call env rfl).bind fun id => ?_
          refine (plain_call env rfl).bind fun createdAt => ?_
          refine (plain_call env rfl).bind fun _ => ?_
          refine (plain_call env rfl).bind fun now => ?_
          refine (plain_call env rfl).bind fun _ => ?_
          exact (plain_newSession env _).bind fun _ => plain_commit env _

theorem rotate_finishes (authSession : AuthSession) (user : User) (now : Timestamp)
    (owned : List Uuid) :
    (stages env).Follows (Stage.fresh owned) (rotate env authSession user now)
      fun _ σ => σ = Stage.finished authSession.id := by
  refine Typestate.Follows.call trivial ?_
  rintro replacementId _ rfl
  refine Typestate.Follows.call trivial ?_
  rintro secret _ rfl
  refine Typestate.Follows.call trivial ?_
  rintro _ _ rfl
  refine Typestate.Follows.call trivial ?_
  rintro _ _ rfl
  refine Typestate.Follows.call trivial ?_
  rintro issuedAt _ rfl
  refine Typestate.Follows.call trivial ?_
  rintro _ _ rfl
  rfl

def Refreshed (id : Uuid) (out : Outcome) (σ : Stage) : Prop :=
  ∀ result, out = .authenticated result → σ = .finished id

theorem plain_rejects {p : Proc Unit} (hp : Plain env p) (id : Uuid) (owned : List Uuid) :
    (stages env).Follows (Stage.fresh owned) (do p; rejectRefresh) (Refreshed id) := by
  refine (hp owned).bind ?_
  rintro _ _ ⟨owned', rfl⟩
  refine Typestate.Follows.call trivial ?_
  rintro _ _ rfl
  rintro result h
  cases h

theorem rejectRefresh_refreshed (id : Uuid) (owned : List Uuid) :
    (stages env).Follows (Stage.fresh owned) rejectRefresh (Refreshed id) :=
  plain_rejects env (plain_return env ()) id owned

theorem refreshLocked_refreshed (authSession : AuthSession) (owned : List Uuid) :
    (stages env).Follows (Stage.fresh owned) (refreshLocked env authSession)
      (Refreshed authSession.id) := by
  unfold refreshLocked
  split
  · exact plain_rejects env (plain_revoke env _) _ owned
  · refine Typestate.Follows.call trivial ?_
    rintro now _ rfl
    refine Typestate.Follows.call trivial ?_
    rintro (_ | user) _ rfl
    · exact plain_rejects env (plain_revoke env _) _ owned
    · dsimp only
      split
      · exact plain_rejects env (plain_revoke env _) _ owned
      · exact (rotate_finishes env authSession user now owned).mono fun _ _ hσ _ _ => hσ

theorem refresh_post (refreshToken : String) :
    (stages env).Follows (Stage.fresh []) (refresh env refreshToken)
      (post (.refresh refreshToken)) := by
  have hpost : ∀ {id secret}, parseRefreshToken refreshToken = some (id, secret) →
      ∀ out σ, Refreshed id out σ → post (.refresh refreshToken) out σ := by
    intro id secret hparse out σ hrefreshed
    cases out with
    | authenticated result => exact ⟨id, secret, hparse, hrefreshed result rfl⟩
    | completed | rejected => exact trivial
  unfold refresh
  split
  · refine Typestate.Follows.call trivial ?_
    rintro _ _ rfl
    exact trivial
  · rename_i sessionId secret hparse
    refine Typestate.Follows.call trivial ?_
    rintro (_ | authSession) σ hσ
    · obtain rfl : σ = Stage.fresh [] := hσ
      exact (rejectRefresh_refreshed env sessionId []).mono (hpost hparse)
    · obtain ⟨rfl, rfl⟩ := hσ
      simp only [refreshFound]
      split
      · exact (rejectRefresh_refreshed env authSession.id []).mono (hpost hparse)
      · exact (refreshLocked_refreshed env authSession []).mono (hpost hparse)

theorem body_post (c : Call) : (stages env).Follows (Stage.fresh []) (body env c) (post c) := by
  have hplain : ∀ {p : Proc Outcome}, Plain env p → ∀ {Q : Outcome → Stage → Prop},
      (∀ out σ, Q out σ) → (stages env).Follows (Stage.fresh []) p Q :=
    fun hp _ hQ => (hp []).mono fun out σ _ => hQ out σ
  cases c with
  | login email password => exact hplain (plain_login env email password) fun _ _ => trivial
  | register email fullName password =>
      exact hplain (plain_register env email fullName password) fun _ _ => trivial
  | refresh refreshToken => exact refresh_post env refreshToken
  | logout refreshToken =>
      exact hplain ((plain_revokeFamilyOf env refreshToken).bind fun _ => plain_commit env _)
        fun _ _ => trivial
  | changePassword userId currentPassword newPassword =>
      exact hplain (plain_changePassword env userId currentPassword newPassword)
        fun _ _ => trivial
  | update userId payload => exact hplain (plain_update env userId payload) fun _ _ => trivial
  | executeActions actions =>
      exact hplain ((plain_executeAll env actions).bind fun _ => plain_commit env _)
        fun _ _ => trivial
  | rollbackDisableUser target wasActive =>
      exact hplain (plain_rollbackDisableUser env target wasActive) fun _ _ => trivial
  | revokeAppSessions userId =>
      exact hplain (plain_revokeAppSessions env userId) fun _ _ => trivial

end Programs

end Families

end Auth
