import AiSoc.Library.Process
import AiSoc.Library.RowStore
import AiSoc.Security.Permissions

namespace Auth

open Permissions (Uuid Timestamp)
open RowStore Process

structure User where
  id : Uuid
  email : String
  fullName : String
  passwordHash : String
  roleName : String
  isActive : Bool
  lastLoginAt : Option Timestamp
  credentialsChangedAt : Timestamp
  updatedAt : Timestamp

structure AuthSession where
  id : Uuid
  familyId : Uuid
  userId : Uuid
  tokenHash : String
  expiresAt : Timestamp
  revokedAt : Option Timestamp
  replacedById : Option Uuid
  lastUsedAt : Option Timestamp

-- the WHERE clauses of revoke_family and revoke_user
inductive Target where
  | family (familyId : Uuid)
  | user (userId : Uuid)
  deriving DecidableEq

def Target.matches : Target → AuthSession → Bool
  | .family familyId, row => row.familyId = familyId
  | .user userId, row => row.userId = userId

def Target.revocable (target : Target) (row : AuthSession) : Bool :=
  target.matches row && row.revokedAt.isNone

def revoked (now : Timestamp) (row : AuthSession) : AuthSession :=
  { row with revokedAt := some now }

def rotated (now : Timestamp) (replacementId : Uuid) (row : AuthSession) : AuthSession :=
  { row with revokedAt := some now, lastUsedAt := some now, replacedById := some replacementId }

-- a revoking UPDATE and the sessions that were committed when it began
structure Revocation where
  target : Target
  seen : List Uuid

structure Db where
  users : Table Uuid User
  sessions : Table Uuid AuthSession
  -- identifiers below it have been handed out
  nextId : Uuid
  -- the revoking statements that an open transaction has begun
  revoking : Nat → List Revocation
  -- the transaction has counted another administrator, and no commit has removed one since
  counted : Nat → Bool

def Db.empty : Db :=
  ⟨.empty, .empty, 0, fun _ => [], fun _ => false⟩

inductive Stmt where
  | now
  | uuid4
  | tokenUrlsafe
  -- the answer of the login limiter
  | limited
  | getUser (id : Uuid)
  | getUserByEmail (email : String)
  | activeAdminCount
  | insertUser (row : User)
  | writeUser (id : Uuid) (f : User → User)
  | getSessionForUpdate (id : Uuid)
  | insertSession (row : AuthSession)
  | rotateSession (id : Uuid) (now : Timestamp) (replacementId : Uuid)
  -- an UPDATE takes its snapshot when it begins, then locks and checks row by row
  | beginRevoke (target : Target)
  | revokeRow (target : Target) (id : Uuid) (now : Timestamp)
  | commit
  | rollback

@[reducible] def Result : Stmt → Type
  | .now => Timestamp
  | .uuid4 => Uuid
  | .tokenUrlsafe => String
  | .limited => Bool
  | .getUser _ => Option User
  | .getUserByEmail _ => Option User
  | .activeAdminCount => Nat
  | .insertUser _ => Unit
  | .writeUser _ _ => Unit
  | .getSessionForUpdate _ => Option AuthSession
  | .insertSession _ => Unit
  | .rotateSession _ _ _ => Unit
  | .beginRevoke _ => List Uuid
  | .revokeRow _ _ _ => Unit
  | .commit => Unit
  | .rollback => Unit

-- what the environment decides: clocks, secrets, the limiter, the order of a scan
inductive Choice where
  | auto
  | time (now : Timestamp)
  | text (s : String)
  | flag (b : Bool)
  | uuids (ids : List Uuid)

def sessionIds (db : Db) : List Uuid :=
  db.sessions.keys.filter fun id => (db.sessions.committed id).isSome

def visibleUsers (db : Db) (t : Nat) : List User :=
  db.users.keys.filterMap (db.users.view t)

def isActiveAdmin (user : User) : Bool :=
  user.roleName = "admin" && user.isActive

def activeAdminCount (db : Db) (t : Nat) : Nat :=
  (visibleUsers db t).countP isActiveAdmin

def removesAdminRow (db : Db) (t : Nat) (id : Uuid) : Bool :=
  (db.users.committed id).any isActiveAdmin && !(db.users.view t id).any isActiveAdmin

def removesAnyAdmin (db : Db) (t : Nat) : Bool :=
  db.users.keys.any (removesAdminRow db t)

-- the unique index on email sees the rows of open transactions too
def emailTaken (db : Db) (email : String) : Bool :=
  db.users.keys.any fun id =>
    (db.users.lock id).any (fun held => held.2.email = email) ||
      (db.users.committed id).any fun user => user.email = email

def commitTx (t : Nat) (db : Db) : Db :=
  { db with
    users := db.users.commit t
    sessions := db.sessions.commit t
    revoking := Function.update db.revoking t []
    counted := fun u => db.counted u && !removesAnyAdmin db t && u ≠ t }

def rollbackTx (t : Nat) (db : Db) : Db :=
  { db with
    users := db.users.rollback t
    sessions := db.sessions.rollback t
    revoking := Function.update db.revoking t []
    counted := Function.update db.counted t false }

def exec (t : Nat) : (q : Stmt) → Choice → Db → Option (Result q × Db)
  | .now, .time now, db => some (now, db)
  | .uuid4, _, db => some (db.nextId, { db with nextId := db.nextId + 1 })
  | .tokenUrlsafe, .text s, db => some (s, db)
  | .limited, .flag b, db => some (b, db)
  | .getUser id, _, db => some (db.users.view t id, db)
  | .getUserByEmail email, _, db =>
      some ((visibleUsers db t).find? fun user => user.email = email, db)
  | .activeAdminCount, _, db =>
      let count := activeAdminCount db t
      some (count, { db with counted := Function.update db.counted t (decide (1 < count)) })
  | .insertUser row, _, db =>
      if emailTaken db row.email then none
      else (db.users.insert t row.id row).map fun tb => ((), { db with users := tb })
  | .writeUser id f, _, db =>
      (db.users.recheckRow t id (fun _ => true) f).map fun out => ((), { db with users := out.2 })
  | .getSessionForUpdate id, _, db =>
      (db.sessions.getForUpdate t id).map fun out => (out.1, { db with sessions := out.2 })
  | .insertSession row, _, db =>
      (db.sessions.insert t row.id row).map fun tb => ((), { db with sessions := tb })
  | .rotateSession id now replacementId, _, db =>
      (db.sessions.recheckRow t id (fun _ => true) (rotated now replacementId)).map fun out =>
        ((), { db with sessions := out.2 })
  | .beginRevoke target, .uuids ids, db =>
      if ids.Perm (db.sessions.matching t target.revocable) then
        some (ids, { db with
          revoking :=
            Function.update db.revoking t (⟨target, sessionIds db⟩ :: db.revoking t) })
      else none
  | .revokeRow target id now, _, db =>
      (db.sessions.recheckRow t id target.revocable (revoked now)).map fun out =>
        ((), { db with sessions := out.2 })
  | .commit, _, db => some ((), commitTx t db)
  | .rollback, _, db => some ((), rollbackTx t db)
  | _, _, _ => none

abbrev Proc (α : Type) := Prog Stmt Result α

abbrev call (q : Stmt) : Proc (Result q) := Prog.call q

end Auth
