import AiSoc.Library.PyDatetime
import AiSoc.Library.PyStr
import AiSoc.Response.Actions
import AiSoc.Security.Permissions

namespace Response

open Permissions (Uuid Timestamp)
open PyJson PyDatetime

structure User where
  id : Uuid
  email : String
  isActive : Bool
  credentialsChangedAt : Timestamp
  deriving DecidableEq, Repr

def getUser (users : List User) (userId : Uuid) : Option User :=
  users.find? fun user => user.id = userId

def getByEmail (users : List User) (email : String) : Option User :=
  users.find? fun user => user.email = email

def findUser (users : List User) (target : String) : Option User :=
  match PyStr.uuid target with
  | some userId => (getUser users userId).or (getByEmail users target)
  | none => getByEmail users target

structure AuditLog where
  actorLabel : String
  action : String
  resourceId : String
  outcome : String
  details : Obj
  deriving Repr

structure World where
  users : List User
  -- users whose sessions have been revoked, newest first
  revokedUsers : List Uuid
  -- denylist keys with their time to live
  denylist : List (String × Int)
  audit : List AuditLog

structure ExecutionResult where
  actionId : String
  actionType : ActionType
  target : String
  status : String
  preState : Obj
  postState : Obj
  undoAvailable : Bool
  executedAt : Timestamp

-- str(uuid) of a user id, the fresh action id and the clock
structure ExecutionEnv where
  uuidText : Uuid → String
  actionId : String
  executedAt : Timestamp

def World.saveUser (world : World) (user : User) : World :=
  { world with users := world.users.map fun u => if u.id = user.id then user else u }

def World.revokeUser (world : World) (userId : Uuid) : World :=
  { world with revokedUsers := userId :: world.revokedUsers }

def World.setDenylist (world : World) (key : String) (ttl : Int) : World :=
  { world with denylist := (key, ttl) :: world.denylist.filter fun p => p.1 ≠ key }

def World.deleteDenylist (world : World) (key : String) : World :=
  { world with denylist := world.denylist.filter fun p => p.1 ≠ key }

def ExecutionEnv.result (env : ExecutionEnv) (action : ProposedAction) (target : String)
    (preState postState : Obj) (undoAvailable : Bool) : ExecutionResult :=
  ⟨env.actionId, action.actionType, target, "executed", preState, postState, undoAvailable,
    env.executedAt⟩

def executeRevokeSessions (env : ExecutionEnv) (action : ProposedAction) (world : World) :
    Except String (ExecutionResult × World) :=
  match findUser world.users action.target with
  | none => .error ("Target user '" ++ action.target ++ "' not found")
  | some user =>
      let preState := [("user_id", .str (env.uuidText user.id)), ("email", .str user.email),
        ("credentials_changed_at", .str (isoformat user.credentialsChangedAt))]
      let postState := [("credentials_changed_at", .str (isoformat env.executedAt)),
        ("sessions_revoked", .bool true)]
      .ok (env.result action action.target preState postState false,
        (world.revokeUser user.id).saveUser { user with credentialsChangedAt := env.executedAt })

def executeDisableUser (env : ExecutionEnv) (action : ProposedAction) (world : World) :
    Except String (ExecutionResult × World) :=
  match findUser world.users action.target with
  | none => .error ("Target user '" ++ action.target ++ "' not found")
  | some user =>
      let preState := [("user_id", .str (env.uuidText user.id)), ("email", .str user.email),
        ("is_active", .bool user.isActive)]
      let postState := [("is_active", .bool false), ("sessions_revoked", .bool true)]
      .ok (env.result action action.target preState postState true,
        (world.revokeUser user.id).saveUser
          { user with isActive := false, credentialsChangedAt := env.executedAt })

def executeBlockIp (env : ExecutionEnv) (action : ProposedAction) (world : World) :
    Except String (ExecutionResult × World) :=
  let targetIp := PyStr.strip action.target
  let ttl := action.ttlSeconds.getD 86400
  let preState := [("blocked", .bool false), ("ip", .str targetIp)]
  let postState := [("blocked", .bool true), ("ttl_seconds", .int ttl)]
  .ok (env.result action targetIp preState postState true,
    world.setDenylist ("ai_soc:denylist:ip:" ++ targetIp) ttl)

def World.recordAudit (world : World) (env : ExecutionEnv) (action : ProposedAction)
    (outcome actorLabel : String) (details : Obj) : World :=
  { world with
    audit := ⟨actorLabel, "autonomous_response." ++ action.actionType.value, env.actionId, outcome,
      ("target", .str action.target) :: details⟩ :: world.audit }

def execute (env : ExecutionEnv) (actorLabel : String) (world : World) (action : ProposedAction) :
    Except String ExecutionResult × World :=
  let outcome :=
    match action.actionType with
    | .revokeSessions => executeRevokeSessions env action world
    | .disableUser => executeDisableUser env action world
    | .blockIp => executeBlockIp env action world
    | _ => .error ("Unsupported in-app action type: " ++ action.actionType.value)
  match outcome with
  | .ok (result, world') =>
      (.ok result, world'.recordAudit env action "succeeded" actorLabel
        [("pre_state", .obj result.preState), ("post_state", .obj result.postState)])
  | .error e => (.error e, world.recordAudit env action "failed" actorLabel [("error", .str e)])

-- what the rollback of a result undoes; a result of execute has the key that is read
def revert (world : World) (result : ExecutionResult) : Except String World :=
  match result.actionType with
  | .disableUser =>
      match findUser world.users result.target with
      | none => .error ("User '" ++ result.target ++ "' no longer exists")
      | some user =>
          match result.preState.get "is_active" with
          | some (.bool isActive) => .ok (world.saveUser { user with isActive := isActive })
          | _ => .error "'is_active'"
  | .blockIp => .ok (world.deleteDenylist ("ai_soc:denylist:ip:" ++ result.target))
  | .revokeSessions => .error "Revoked sessions cannot be un-revoked for security safety"
  | _ => .ok world

def rollback (env : ExecutionEnv) (actorLabel : String) (world : World) (result : ExecutionResult) :
    Except String ExecutionResult × World :=
  if !result.undoAvailable then
    (.error ("Action " ++ result.actionType.value ++ " does not support rollback"), world)
  else
    match revert world result with
    | .error e => (.error e, world)
    | .ok world' =>
        (.ok
          { actionId := result.actionId
            actionType := result.actionType
            target := result.target
            status := "reverted"
            preState := result.postState
            postState := result.preState
            undoAvailable := false
            executedAt := env.executedAt },
          { world' with
            audit := ⟨actorLabel, "autonomous_response.rollback." ++ result.actionType.value,
              result.actionId, "reverted", [("target", .str result.target),
                ("restored_to", .obj result.preState)]⟩ :: world'.audit })

end Response
