import AiSoc.Auth.Store
import AiSoc.Library.PyStr

namespace Auth

open Permissions (Uuid Timestamp)
open RowStore Process

structure Env where
  casefold : String → String
  verifyPassword : String → String → Bool
  hashPassword : String → String
  hashSecret : String → String
  refreshTokenLifetime : Int

def Env.normalizeEmail (env : Env) (email : String) : String :=
  env.casefold (PyStr.strip email)

-- token.split(".", 1)
def parseRefreshToken (token : String) : Option (Uuid × String) :=
  let rawId := token.toList.takeWhile (· ≠ '.')
  match token.toList.drop rawId.length with
  | [] => none
  | _ :: secret => (PyStr.uuid (String.ofList rawId)).map fun id => (id, String.ofList secret)

structure AccessToken where
  userId : Uuid
  familyId : Uuid
  issuedAt : Timestamp

structure AuthenticationResult where
  accessToken : AccessToken
  refreshToken : String

inductive Outcome where
  | authenticated (result : AuthenticationResult)
  | completed
  | rejected (error : String)

section Sessions

variable (env : Env)

def revokeRows (target : Target) (now : Timestamp) : List Uuid → Proc Unit
  | [] => return ()
  | id :: ids => do
      call (.revokeRow target id now)
      revokeRows target now ids

def revoke (target : Target) : Proc Unit := do
  let now ← call .now
  let ids ← call (.beginRevoke target)
  revokeRows target now ids

def revokeIf (needed : Bool) (target : Target) : Proc Unit :=
  if needed then revoke target else return ()

def createAccessToken (userId familyId : Uuid) : Proc AccessToken := do
  let now ← call .now
  return ⟨userId, familyId, now⟩

-- generate_refresh_token
def refreshTokenOf (sessionId : Uuid) (secret : String) : String :=
  PyStr.uuidText sessionId ++ "." ++ secret

def newSession (user : User) : Proc AuthenticationResult := do
  let sessionId ← call .uuid4
  let familyId ← call .uuid4
  let secret ← call .tokenUrlsafe
  let now ← call .now
  call (.insertSession
    { id := sessionId
      familyId := familyId
      userId := user.id
      tokenHash := env.hashSecret secret
      expiresAt := now + env.refreshTokenLifetime
      revokedAt := none
      replacedById := none
      lastUsedAt := none })
  let accessToken ← createAccessToken user.id familyId
  return ⟨accessToken, refreshTokenOf sessionId secret⟩

def login (email password : String) : Proc Outcome := do
  let normalized := env.normalizeEmail email
  if ← call .limited then
    call .commit
    return .rejected "Too many authentication attempts"
  else
    match ← call (.getUserByEmail normalized) with
    | none =>
        call .commit
        return .rejected "Invalid email or password"
    | some user =>
        if !env.verifyPassword password user.passwordHash || !user.isActive then
          call .commit
          return .rejected "Invalid email or password"
        else
          let result ← newSession env user
          let now ← call .now
          call (.writeUser user.id fun u => { u with lastLoginAt := some now })
          call .commit
          return .authenticated result

def register (email fullName password : String) : Proc Outcome := do
  let normalized := env.normalizeEmail email
  if ← call .limited then
    call .commit
    return .rejected "Too many registration attempts"
  else
    match ← call (.getUserByEmail normalized) with
    | some _ =>
        call .commit
        return .rejected "An account with this email address already exists"
    | none =>
        let id ← call .uuid4
        let createdAt ← call .now
        let user : User :=
          ⟨id, normalized, PyStr.strip fullName, env.hashPassword password, "analyst", true, none,
            createdAt, createdAt⟩
        call (.insertUser user)
        let now ← call .now
        call (.writeUser id fun u => { u with lastLoginAt := some now })
        let result ← newSession env user
        call .commit
        return .authenticated result

def rejectRefresh : Proc Outcome := do
  call .commit
  return .rejected "Invalid refresh token"

def rotate (authSession : AuthSession) (user : User) (now : Timestamp) : Proc Outcome := do
  let replacementId ← call .uuid4
  let secret ← call .tokenUrlsafe
  call (.rotateSession authSession.id now replacementId)
  call (.insertSession
    { id := replacementId
      familyId := authSession.familyId
      userId := user.id
      tokenHash := env.hashSecret secret
      expiresAt := now + env.refreshTokenLifetime
      revokedAt := none
      replacedById := none
      lastUsedAt := none })
  let accessToken ← createAccessToken user.id authSession.familyId
  call .commit
  return .authenticated ⟨accessToken, refreshTokenOf replacementId secret⟩

def refreshLocked (authSession : AuthSession) : Proc Outcome := do
  if authSession.revokedAt.isSome then
    revoke (.family authSession.familyId)
    rejectRefresh
  else
    let now ← call .now
    match ← call (.getUser authSession.userId) with
    | none =>
        revoke (.family authSession.familyId)
        rejectRefresh
    | some user =>
        if authSession.expiresAt ≤ now ∨ !user.isActive then
          revoke (.family authSession.familyId)
          rejectRefresh
        else rotate env authSession user now

def refreshFound (secret : String) : Option AuthSession → Proc Outcome
  | none => rejectRefresh
  | some authSession =>
      if authSession.tokenHash ≠ env.hashSecret secret then rejectRefresh
      else refreshLocked env authSession

def refresh (refreshToken : String) : Proc Outcome := do
  match parseRefreshToken refreshToken with
  | none => rejectRefresh
  | some (sessionId, secret) =>
      refreshFound env secret (← call (.getSessionForUpdate sessionId))

def revokeFamilyOf (refreshToken : String) : Proc Unit := do
  match parseRefreshToken refreshToken with
  | none => return ()
  | some (sessionId, secret) =>
      match ← call (.getSessionForUpdate sessionId) with
      | none => return ()
      | some authSession =>
          if authSession.tokenHash = env.hashSecret secret then
            revoke (.family authSession.familyId)
          else return ()

def logout (refreshToken : String) : Proc Outcome := do
  revokeFamilyOf env refreshToken
  call .commit
  return .completed

-- the user is the one get_current_user has read
def changePassword (userId : Uuid) (currentPassword newPassword : String) : Proc Outcome := do
  match ← call (.getUser userId) with
  | none => return .rejected "Not authenticated"
  | some user =>
      if !env.verifyPassword currentPassword user.passwordHash then
        call .commit
        return .rejected "Current password is incorrect"
      else
        let now ← call .now
        call (.writeUser userId fun u =>
          { u with passwordHash := env.hashPassword newPassword, credentialsChangedAt := now })
        revoke (.user userId)
        call .commit
        return .completed

end Sessions

section Users

structure UserUpdate where
  fullName : Option String
  roleName : Option String
  isActive : Option Bool

-- the columns an ORM flush writes: those whose value is not the one that was loaded
def changedColumns (payload : UserUpdate) (loaded : User) (now : Timestamp) (user : User) : User :=
  { user with
    fullName := match payload.fullName with
      | some name => if PyStr.strip name = loaded.fullName then user.fullName else PyStr.strip name
      | none => user.fullName
    roleName := match payload.roleName with
      | some role => if role = loaded.roleName then user.roleName else role
      | none => user.roleName
    isActive := match payload.isActive with
      | some active => if active = loaded.isActive then user.isActive else active
      | none => user.isActive
    updatedAt := now }

def removesAdmin (payload : UserUpdate) (user : User) : Bool :=
  user.roleName = "admin" && ((payload.roleName.any fun role => role ≠ "admin") ||
    payload.isActive = some false)

def removesLastAdmin (payload : UserUpdate) (user : User) : Proc Bool := do
  if removesAdmin payload user then
    let count ← call .activeAdminCount
    return count ≤ 1
  else return false

def revokesSessions (payload : UserUpdate) : Bool :=
  payload.isActive = some false || payload.roleName.isSome

def update (userId : Uuid) (payload : UserUpdate) : Proc Outcome := do
  match ← call (.getUser userId) with
  | none => return .rejected "User not found"
  | some user =>
      if ← removesLastAdmin payload user then
        return .rejected "The last active administrator cannot be removed"
      else
        let now ← call .now
        call (.writeUser userId (changedColumns payload user now))
        revokeIf (revokesSessions payload) (.user userId)
        call .commit
        return .completed

end Users

section Containment

def findUser (target : String) : Proc (Option User) := do
  match PyStr.uuid target with
  | none => call (.getUserByEmail target)
  | some id =>
      match ← call (.getUser id) with
      | some user => return some user
      | none => call (.getUserByEmail target)

def executeRevokeSessions (target : String) : Proc Unit := do
  let executedAt ← call .now
  match ← findUser target with
  | none => return ()
  | some user =>
      revoke (.user user.id)
      call (.writeUser user.id fun u => { u with credentialsChangedAt := executedAt })

def setActive (user : User) (active : Bool) : Proc Unit :=
  if user.isActive = active then return ()
  else call (.writeUser user.id fun u => { u with isActive := active })

def executeDisableUser (target : String) : Proc Unit := do
  let executedAt ← call .now
  match ← findUser target with
  | none => return ()
  | some user =>
      setActive user false
      revoke (.user user.id)
      call (.writeUser user.id fun u => { u with credentialsChangedAt := executedAt })

inductive Containment where
  | revokeSessions (target : String)
  | disableUser (target : String)

def executeAll : List Containment → Proc Unit
  | [] => return ()
  | .revokeSessions target :: actions => do
      executeRevokeSessions target
      executeAll actions
  | .disableUser target :: actions => do
      executeDisableUser target
      executeAll actions

-- the actions of one investigation share the transaction that persistence_node commits
def executeActions (actions : List Containment) : Proc Outcome := do
  executeAll actions
  call .commit
  return .completed

-- InAppActionExecutor.rollback of a DISABLE_USER result, committed by its caller
def rollbackDisableUser (target : String) (wasActive : Bool) : Proc Outcome := do
  match ← findUser target with
  | none => return .rejected s!"User '{target}' no longer exists"
  | some user =>
      setActive user wasActive
      call .commit
      return .completed

-- execute_action of the response worker for revoke_app_sessions, after the claim
def revokeAppSessions (userId : Uuid) : Proc Outcome := do
  match ← call (.getUser userId) with
  | none =>
      call .rollback
      call .commit
      return .rejected "Target app user no longer exists"
  | some _ =>
      revoke (.user userId)
      call .commit
      return .completed

end Containment

inductive Call where
  | login (email password : String)
  | register (email fullName password : String)
  | refresh (refreshToken : String)
  | logout (refreshToken : String)
  | changePassword (userId : Uuid) (currentPassword newPassword : String)
  | update (userId : Uuid) (payload : UserUpdate)
  | executeActions (actions : List Containment)
  | rollbackDisableUser (target : String) (wasActive : Bool)
  | revokeAppSessions (userId : Uuid)

def body (env : Env) : Call → Proc Outcome
  | .login email password => login env email password
  | .register email fullName password => register env email fullName password
  | .refresh refreshToken => refresh env refreshToken
  | .logout refreshToken => logout env refreshToken
  | .changePassword userId currentPassword newPassword =>
      changePassword env userId currentPassword newPassword
  | .update userId payload => update userId payload
  | .executeActions actions => executeActions actions
  | .rollbackDisableUser target wasActive => rollbackDisableUser target wasActive
  | .revokeAppSessions userId => revokeAppSessions userId

def machine (env : Env) : Machine where
  Db := Db
  Stmt := Stmt
  Result := Result
  Choice := Choice
  Call := Call
  Out := Outcome
  exec := exec
  close := rollbackTx
  body := body env

-- passwords and secrets stand for their own hashes
def demoEnv : Env where
  casefold := id
  verifyPassword password hash := password = hash
  hashPassword := id
  hashSecret := id
  refreshTokenLifetime := 1000

end Auth
