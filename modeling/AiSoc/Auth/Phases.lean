import AiSoc.Auth.Service

namespace Auth

open Permissions (Uuid Timestamp)
open RowStore Process

def SameOrigin (row row' : AuthSession) : Prop :=
  row'.familyId = row.familyId ∧ row'.userId = row.userId

def Evolves (row row' : AuthSession) : Prop :=
  SameOrigin row row' ∧ (row.revokedAt ≠ none → row' = row)

theorem SameOrigin.refl (row : AuthSession) : SameOrigin row row := ⟨rfl, rfl⟩

theorem SameOrigin.trans {a b c : AuthSession} (h : SameOrigin a b) (h' : SameOrigin b c) :
    SameOrigin a c :=
  ⟨h'.1.trans h.1, h'.2.trans h.2⟩

theorem SameOrigin.symm {a b : AuthSession} (h : SameOrigin a b) : SameOrigin b a :=
  ⟨h.1.symm, h.2.symm⟩

theorem Evolves.refl (row : AuthSession) : Evolves row row := ⟨.refl row, fun _ => rfl⟩

theorem SameOrigin.matches {row row' : AuthSession} (h : SameOrigin row row') (target : Target) :
    target.matches row' = target.matches row := by
  cases target <;> simp only [Target.matches, h.1, h.2]

theorem evolves_revoked {row row' : AuthSession} {now : Timestamp} (h : Evolves row row')
    (hactive : row'.revokedAt = none) : Evolves row (revoked now row') := by
  refine ⟨h.1, fun hrevoked => ?_⟩
  have hsame := h.2 hrevoked
  rw [hsame] at hactive
  exact absurd hactive hrevoked

structure Inv (db : Db) : Prop where
  usersId : db.users.All fun id user => user.id = id
  sessionsId : db.sessions.All fun id row => row.id = id
  known : ∀ id row, db.sessions.Version id row → id ∈ db.sessions.keys
  evolves : ∀ id t row row', db.sessions.committed id = some row →
    db.sessions.lock id = some (t, row') → Evolves row row'
  replaced : ∀ id row next, db.sessions.committed id = some row → row.replacedById = some next →
    ∃ row', db.sessions.committed next = some row' ∧ SameOrigin row row'

inductive Phase where
  | idle
  | holding (id : Uuid) (row : AuthSession)
  | rotated (row : AuthSession) (replacementId : Uuid)
  | inserted
  | revoking (target : Target) (pending : List Uuid)

def Saw (db : Db) (t : Nat) (id : Uuid) (row : AuthSession) : Prop :=
  ∃ rev ∈ db.revoking t, rev.target.matches row = true ∧ id ∈ rev.seen

def HeldRevoked (t : Nat) (db : Db) (id : Uuid) : Prop :=
  ∃ row, db.sessions.lock id = some (t, row) ∧ row.revokedAt ≠ none

structure Revoking (t : Nat) (target : Target) (pending : List Uuid) (db : Db) : Prop where
  held : ∀ id row', db.sessions.lock id = some (t, row') →
    ∃ row, db.sessions.committed id = some row ∧ row'.replacedById = row.replacedById ∧
      (row'.revokedAt ≠ none → row.revokedAt = none → Saw db t id row)
  covered : ∀ rev ∈ db.revoking t, ∀ id ∈ rev.seen,
    ∃ row, db.sessions.committed id = some row ∧
      (rev.target.matches row = true → row.revokedAt = none →
        HeldRevoked t db id ∨ id ∈ pending ∧ target.matches row = true)
  current : ∃ rev ∈ db.revoking t, rev.target = target ∧ ∀ id ∈ pending, id ∈ rev.seen

def Phase.holds (t : Nat) : Phase → Db → Prop
  | .idle, db => db.sessions.NoLocks t ∧ db.revoking t = []
  | .holding id row, db =>
      db.sessions.lock id = some (t, row) ∧ db.sessions.committed id = some row ∧
        db.sessions.OnlyLock t id ∧ db.revoking t = []
  | .rotated row replacementId, db =>
      (∃ now, db.sessions.lock row.id = some (t, Auth.rotated now replacementId row)) ∧
        db.sessions.committed row.id = some row ∧ row.revokedAt = none ∧
        db.sessions.OnlyLock t row.id ∧ db.revoking t = []
  | .inserted, db =>
      (∀ id row next, db.sessions.lock id = some (t, row) → row.replacedById = some next →
        ∃ row', SameOrigin row row' ∧
          (db.sessions.committed next = some row' ∨ db.sessions.lock next = some (t, row'))) ∧
        db.revoking t = []
  | .revoking target pending, db => Revoking t target pending db

def Phase.settled : Phase → Prop
  | .idle => True
  | .holding _ _ => True
  | .revoking _ pending => pending = []
  | _ => False

theorem settled_idle : Phase.idle.settled := trivial

theorem settled_holding (id : Uuid) (row : AuthSession) : (Phase.holding id row).settled := trivial

theorem settled_revoking (target : Target) : (Phase.revoking target []).settled := rfl

def Phase.allowed : Phase → Stmt → Prop
  | _, .writeUser _ f => ∀ user, (f user).id = user.id
  | φ, .getSessionForUpdate _ => φ = .idle
  | φ, .insertSession row =>
      row.replacedById = none ∧
        (φ = .idle ∨ ∃ old, φ = .rotated old row.id ∧ SameOrigin old row)
  | φ, .rotateSession id _ _ => ∃ row, φ = .holding id row ∧ row.revokedAt = none
  | φ, .beginRevoke _ => φ.settled
  | φ, .revokeRow target id _ => ∃ ids, φ = .revoking target (id :: ids)
  | φ, .commit => φ.settled ∨ φ = .inserted
  | _, _ => True

def Phase.afterRotate (replacementId : Uuid) : Phase → Phase
  | .holding _ row => .rotated row replacementId
  | φ => φ

def Phase.afterRow : Phase → Phase
  | .revoking target (_ :: ids) => .revoking target ids
  | φ => φ

def Phase.next (φ : Phase) : (q : Stmt) → Result q → Phase → Prop
  | .getUser id, some user, ψ => ψ = φ ∧ user.id = id
  | .getSessionForUpdate id, some row, ψ => ψ = .holding id row ∧ row.id = id
  | .insertSession _, _, ψ => ψ = .inserted
  | .rotateSession _ _ replacementId, _, ψ => ψ = φ.afterRotate replacementId
  | .beginRevoke target, ids, ψ => ψ = .revoking target ids
  | .revokeRow _ _ _, _, ψ => ψ = φ.afterRow
  | .commit, _, ψ => ψ = .idle
  | .rollback, _, ψ => ψ = .idle
  | _, _, ψ => ψ = φ

def typestate (env : Env) : Typestate (machine env) where
  Phase := Phase
  init := .idle
  allowed := Phase.allowed
  next := Phase.next
  holds := Phase.holds
  inv := Inv

section Programs

variable (env : Env)

def Leads {α : Type} (φ : Phase) (p : Proc α) (ψ : Phase) : Prop :=
  (typestate env).Follows φ p fun _ ψ' => ψ' = ψ

def Rests {α : Type} (φ : Phase) (p : Proc α) : Prop :=
  (typestate env).Follows φ p fun _ ψ => ψ = Phase.idle ∨ ∃ target, ψ = .revoking target []

theorem follows_commit {φ : Phase} {α : Type} (hφ : φ.settled ∨ φ = .inserted) (out : α) :
    Leads env φ (do call .commit; return out) .idle := by
  refine Typestate.Follows.call hφ ?_
  rintro _ _ rfl
  rfl

theorem createAccessToken_leads (φ : Phase) (userId familyId : Uuid) :
    Leads env φ (createAccessToken userId familyId) φ := by
  refine Typestate.Follows.call trivial ?_
  rintro now _ rfl
  rfl

theorem revokeRows_leads (target : Target) (now : Timestamp) (ids : List Uuid) :
    Leads env (.revoking target ids) (revokeRows target now ids) (.revoking target []) := by
  induction ids with
  | nil => rfl
  | cons id ids ih =>
      refine Typestate.Follows.call ⟨ids, rfl⟩ ?_
      rintro _ _ rfl
      exact ih

theorem revoke_leads {φ : Phase} (hφ : φ.settled) (target : Target) :
    Leads env φ (revoke target) (.revoking target []) := by
  refine Typestate.Follows.call trivial ?_
  rintro now _ rfl
  refine Typestate.Follows.call hφ ?_
  rintro ids _ rfl
  exact revokeRows_leads env target now ids

theorem revoke_rejects {φ : Phase} (hφ : φ.settled) (target : Target) :
    Leads env φ (do revoke target; rejectRefresh) .idle := by
  refine (revoke_leads env hφ target).bind ?_
  rintro _ _ rfl
  exact follows_commit env (.inl (settled_revoking _)) _

theorem newSession_leads (user : User) :
    Leads env .idle (newSession env user) .inserted := by
  refine Typestate.Follows.call trivial ?_
  rintro sessionId _ rfl
  refine Typestate.Follows.call trivial ?_
  rintro familyId _ rfl
  refine Typestate.Follows.call trivial ?_
  rintro secret _ rfl
  refine Typestate.Follows.call trivial ?_
  rintro now _ rfl
  refine Typestate.Follows.call ⟨rfl, .inl rfl⟩ ?_
  rintro _ _ rfl
  refine (createAccessToken_leads env .inserted user.id familyId).bind ?_
  rintro accessToken _ rfl
  rfl

theorem login_leads (email password : String) :
    Leads env .idle (login env email password) .idle := by
  refine Typestate.Follows.call trivial ?_
  rintro limited _ rfl
  cases limited with
  | true => exact follows_commit env (.inl settled_idle) _
  | false =>
      refine Typestate.Follows.call trivial ?_
      rintro (_ | user) _ rfl
      · exact follows_commit env (.inl settled_idle) _
      · dsimp only
        split
        · exact follows_commit env (.inl settled_idle) _
        · refine (newSession_leads env user).bind ?_
          rintro result _ rfl
          refine Typestate.Follows.call trivial ?_
          rintro now _ rfl
          refine Typestate.Follows.call (fun _ => rfl) ?_
          rintro _ _ rfl
          exact follows_commit env (.inr rfl) _

theorem register_leads (email fullName password : String) :
    Leads env .idle (register env email fullName password) .idle := by
  refine Typestate.Follows.call trivial ?_
  rintro limited _ rfl
  cases limited with
  | true => exact follows_commit env (.inl settled_idle) _
  | false =>
      refine Typestate.Follows.call trivial ?_
      rintro (_ | user) _ rfl
      · refine Typestate.Follows.call trivial ?_
        rintro id _ rfl
        refine Typestate.Follows.call trivial ?_
        rintro createdAt _ rfl
        refine Typestate.Follows.call trivial ?_
        rintro _ _ rfl
        refine Typestate.Follows.call trivial ?_
        rintro now _ rfl
        refine Typestate.Follows.call (fun _ => rfl) ?_
        rintro _ _ rfl
        refine (newSession_leads env _).bind ?_
        rintro result _ rfl
        exact follows_commit env (.inr rfl) _
      · exact follows_commit env (.inl settled_idle) _

theorem rotate_leads {id : Uuid} {authSession : AuthSession} {user : User}
    (hid : authSession.id = id) (huser : user.id = authSession.userId)
    (hactive : authSession.revokedAt = none) (now : Timestamp) :
    Leads env (.holding id authSession) (rotate env authSession user now) .idle := by
  refine Typestate.Follows.call trivial ?_
  rintro replacementId _ rfl
  refine Typestate.Follows.call trivial ?_
  rintro secret _ rfl
  refine Typestate.Follows.call ⟨authSession, by rw [hid], hactive⟩ ?_
  rintro _ _ rfl
  refine Typestate.Follows.call ⟨rfl, .inr ⟨authSession, rfl, rfl, huser⟩⟩ ?_
  rintro _ _ rfl
  refine (createAccessToken_leads env .inserted user.id authSession.familyId).bind ?_
  rintro accessToken _ rfl
  exact follows_commit env (.inr rfl) _

theorem refreshLocked_leads {id : Uuid} {authSession : AuthSession} (hid : authSession.id = id) :
    Leads env (.holding id authSession) (refreshLocked env authSession) .idle := by
  unfold refreshLocked
  split
  · exact revoke_rejects env (settled_holding _ _) _
  · rename_i hrevoked
    have hactive : authSession.revokedAt = none := by simpa using hrevoked
    refine Typestate.Follows.call trivial ?_
    rintro now _ rfl
    refine Typestate.Follows.call trivial ?_
    rintro (_ | user) ψ hψ
    · obtain rfl : ψ = Phase.holding id authSession := hψ
      exact revoke_rejects env (settled_holding _ _) _
    · obtain ⟨rfl, huser⟩ := hψ
      dsimp only
      split
      · exact revoke_rejects env (settled_holding _ _) _
      · exact rotate_leads env hid huser hactive now

theorem refresh_leads (refreshToken : String) :
    Leads env .idle (refresh env refreshToken) .idle := by
  unfold refresh
  split
  · exact follows_commit env (.inl settled_idle) _
  · refine Typestate.Follows.call rfl ?_
    rintro (_ | authSession) ψ hψ
    · obtain rfl : ψ = Phase.idle := hψ
      exact follows_commit env (.inl settled_idle) _
    · obtain ⟨rfl, hid⟩ := hψ
      simp only [refreshFound]
      split
      · exact follows_commit env (.inl (settled_holding _ _)) _
      · exact refreshLocked_leads env hid

theorem revokeFamilyOf_follows (refreshToken : String) :
    (typestate env).Follows Phase.idle (revokeFamilyOf env refreshToken)
      fun _ ψ => Phase.settled ψ := by
  unfold revokeFamilyOf
  split
  · exact trivial
  · refine Typestate.Follows.call rfl ?_
    rintro (_ | authSession) ψ hψ
    · obtain rfl : ψ = Phase.idle := hψ
      exact trivial
    · obtain ⟨rfl, _⟩ := hψ
      dsimp only
      split
      · refine (revoke_leads env (settled_holding _ _) _).mono ?_
        rintro _ _ rfl
        rfl
      · exact trivial

theorem logout_leads (refreshToken : String) :
    Leads env .idle (logout env refreshToken) .idle := by
  refine (revokeFamilyOf_follows env refreshToken).bind ?_
  intro _ ψ hψ
  exact follows_commit env (.inl hψ) _

theorem changePassword_rests (userId : Uuid) (currentPassword newPassword : String) :
    Leads env .idle (changePassword env userId currentPassword newPassword) .idle := by
  refine Typestate.Follows.call trivial ?_
  rintro (_ | user) ψ hψ
  · exact hψ
  · obtain ⟨rfl, _⟩ := hψ
    dsimp only
    split
    · exact follows_commit env (.inl settled_idle) _
    · refine Typestate.Follows.call trivial ?_
      rintro now _ rfl
      refine Typestate.Follows.call (fun _ => rfl) ?_
      rintro _ _ rfl
      refine (revoke_leads env settled_idle _).bind ?_
      rintro _ _ rfl
      exact follows_commit env (.inl (settled_revoking _)) _

theorem removesLastAdmin_leads (payload : UserUpdate) (user : User) :
    Leads env .idle (removesLastAdmin payload user) .idle := by
  unfold removesLastAdmin
  split
  · refine Typestate.Follows.call trivial ?_
    rintro count _ rfl
    rfl
  · rfl

theorem update_leads (userId : Uuid) (payload : UserUpdate) :
    Leads env .idle (update userId payload) .idle := by
  refine Typestate.Follows.call trivial ?_
  rintro (_ | user) ψ hψ
  · exact hψ
  · obtain ⟨rfl, _⟩ := hψ
    refine (removesLastAdmin_leads env payload user).bind ?_
    rintro last _ rfl
    cases last with
    | true => rfl
    | false =>
        refine Typestate.Follows.call trivial ?_
        rintro now _ rfl
        refine Typestate.Follows.call (fun _ => rfl) ?_
        rintro _ _ rfl
        cases hneeded : revokesSessions payload with
        | true =>
            refine (revoke_leads env settled_idle _).bind ?_
            rintro _ _ rfl
            exact follows_commit env (.inl (settled_revoking _)) _
        | false => exact follows_commit env (.inl settled_idle) _

theorem findUser_leads (φ : Phase) (target : String) : Leads env φ (findUser target) φ := by
  have hemail : Leads env φ (call (.getUserByEmail target)) φ :=
    Typestate.Follows.last trivial (by rintro _ _ rfl; rfl)
  unfold findUser
  split
  · exact hemail
  · refine Typestate.Follows.call trivial ?_
    rintro (_ | user) ψ hψ
    · obtain rfl : ψ = φ := hψ
      exact hemail
    · exact hψ.1

-- the text parser under it is never evaluated from here on
attribute [local irreducible] findUser

theorem setActive_leads (φ : Phase) (user : User) (active : Bool) :
    Leads env φ (setActive user active) φ := by
  unfold setActive
  split
  · rfl
  · exact Typestate.Follows.last (fun _ => rfl) (by rintro _ _ rfl; rfl)

theorem executeRevokeSessions_rests {φ : Phase}
    (hφ : φ = .idle ∨ ∃ target, φ = .revoking target []) (target : String) :
    Rests env φ (executeRevokeSessions target) := by
  have hsettled : φ.settled := by rcases hφ with rfl | ⟨_, rfl⟩ <;> trivial
  unfold executeRevokeSessions
  refine Typestate.Follows.call trivial ?_
  rintro executedAt _ rfl
  refine (findUser_leads env _ target).bind ?_
  rintro (_ | user) _ rfl
  · exact hφ
  · refine (revoke_leads env hsettled _).bind ?_
    rintro _ _ rfl
    exact Typestate.Follows.last (fun _ => rfl) (by rintro _ _ rfl; exact .inr ⟨_, rfl⟩)

theorem executeDisableUser_rests {φ : Phase}
    (hφ : φ = .idle ∨ ∃ target, φ = .revoking target []) (target : String) :
    Rests env φ (executeDisableUser target) := by
  have hsettled : φ.settled := by rcases hφ with rfl | ⟨_, rfl⟩ <;> trivial
  unfold executeDisableUser
  refine Typestate.Follows.call trivial ?_
  rintro executedAt _ rfl
  refine (findUser_leads env _ target).bind ?_
  rintro (_ | user) _ rfl
  · exact hφ
  · refine (setActive_leads env _ user false).bind ?_
    rintro _ _ rfl
    refine (revoke_leads env hsettled _).bind ?_
    rintro _ _ rfl
    exact Typestate.Follows.last (fun _ => rfl) (by rintro _ _ rfl; exact .inr ⟨_, rfl⟩)

theorem executeAll_rests (actions : List Containment) {φ : Phase}
    (hφ : φ = .idle ∨ ∃ target, φ = .revoking target []) :
    Rests env φ (executeAll actions) := by
  induction actions generalizing φ with
  | nil => exact hφ
  | cons action actions ih =>
      cases action with
      | revokeSessions target =>
          exact (executeRevokeSessions_rests env hφ target).bind fun _ _ hψ => ih hψ
      | disableUser target =>
          exact (executeDisableUser_rests env hφ target).bind fun _ _ hψ => ih hψ

theorem executeActions_leads (actions : List Containment) :
    Leads env .idle (executeActions actions) .idle := by
  refine (executeAll_rests env actions (.inl rfl)).bind ?_
  rintro _ _ (rfl | ⟨target, rfl⟩)
  · exact follows_commit env (.inl settled_idle) _
  · exact follows_commit env (.inl (settled_revoking _)) _

theorem rollbackDisableUser_leads (target : String) (wasActive : Bool) :
    Leads env .idle (rollbackDisableUser target wasActive) .idle := by
  unfold rollbackDisableUser
  refine (findUser_leads env _ target).bind ?_
  rintro (_ | user) _ rfl
  · rfl
  · refine (setActive_leads env _ user wasActive).bind ?_
    rintro _ _ rfl
    exact follows_commit env (.inl settled_idle) _

theorem revokeAppSessions_leads (userId : Uuid) :
    Leads env .idle (revokeAppSessions userId) .idle := by
  refine Typestate.Follows.call trivial ?_
  rintro (_ | user) ψ hψ
  · obtain rfl : ψ = Phase.idle := hψ
    refine Typestate.Follows.call trivial ?_
    rintro _ _ rfl
    exact follows_commit env (.inl settled_idle) _
  · obtain ⟨rfl, _⟩ := hψ
    refine (revoke_leads env settled_idle _).bind ?_
    rintro _ _ rfl
    exact follows_commit env (.inl (settled_revoking _)) _

theorem body_leads (c : Call) : Leads env .idle (body env c) .idle := by
  cases c with
  | login email password => exact login_leads env email password
  | register email fullName password => exact register_leads env email fullName password
  | refresh refreshToken => exact refresh_leads env refreshToken
  | logout refreshToken => exact logout_leads env refreshToken
  | changePassword userId currentPassword newPassword =>
      exact changePassword_rests env userId currentPassword newPassword
  | update userId payload => exact update_leads env userId payload
  | executeActions actions => exact executeActions_leads env actions
  | rollbackDisableUser target wasActive =>
      exact rollbackDisableUser_leads env target wasActive
  | revokeAppSessions userId => exact revokeAppSessions_leads env userId

end Programs

end Auth
