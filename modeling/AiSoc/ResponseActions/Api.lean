import AiSoc.ResponseActions.Worker

namespace ResponseActions

open Permissions

structure User where
  isActive : Bool
  roleName : RoleName
  deriving DecidableEq, Repr

inductive HttpError where
  | unauthorized (detail : String)
  | forbidden (detail : String)
  | notFound (detail : String)
  | badRequest (detail : String)
  | conflict (detail : String)
  | internal
  deriving DecidableEq, Repr

structure Api where
  users : Uuid → Option User
  actions : List (Uuid × ResponseAction)
  -- history: the role of the user who decided an action, at the decision
  decidedAs : Uuid → Option RoleName

def Api.start (users : Uuid → Option User) : Api :=
  ⟨users, [], fun _ => none⟩

-- token is the user a valid access token names
def getCurrentUser (api : Api) (token : Option Uuid) : Except HttpError (Uuid × User) :=
  match token with
  | none => .error (.unauthorized "Not authenticated")
  | some userId =>
      match api.users userId with
      | none => .error (.unauthorized "Not authenticated")
      | some user =>
          if user.isActive then .ok (userId, user)
          else .error (.unauthorized "Not authenticated")

def requirePermission (permission : Permission) (api : Api) (token : Option Uuid) :
    Except HttpError (Uuid × User) := do
  let actor ← getCurrentUser api token
  if permission ∉ permissionsForRole actor.2.roleName then throw (.forbidden "Forbidden")
  return actor

def Api.findExisting (api : Api) (incidentId : Uuid) (key : String) : Option ResponseAction :=
  (api.actions.map (·.2)).find? fun row =>
    row.incidentId = incidentId ∧ row.idempotencyKey = key

def Api.save (api : Api) (id : Uuid) (row : ResponseAction) : Api :=
  { api with actions := api.actions.map fun p => if p.1 = id then (id, row) else p }

def proposeEndpoint (token : Option Uuid) (incidentId : Uuid) (payload : ResponseActionCreate)
    (incidentExists : Bool) (validRefs : List String) (targetUserExists : Bool) (id : Uuid)
    (now : Timestamp) (api : Api) : Except HttpError Api := do
  let (actorId, _) ← requirePermission .responsesPropose api token
  let reads : ProposeReads :=
    ⟨incidentExists, api.findExisting incidentId payload.idempotencyKey, validRefs,
      targetUserExists⟩
  match propose reads incidentId payload actorId now with
  | .error detail => throw (.badRequest detail)
  | .ok (_, false) => return api
  | .ok (row, true) =>
      -- the primary key
      if (api.actions.lookup id).isSome then throw .internal
      return { api with actions := (id, row) :: api.actions }

def decideEndpoint (settings : Settings) (token : Option Uuid) (id : Uuid) (decision : String)
    (now : Timestamp) (api : Api) : Except HttpError Api := do
  let (actorId, user) ← requirePermission .responsesApprove api token
  if decision ≠ "approve" ∧ decision ≠ "reject" then throw (.notFound "Unknown decision")
  match api.actions.lookup id with
  | none => throw (.conflict "Response action not found")
  | some action =>
      match ResponseActions.decide settings action actorId (decision = "approve") now with
      | .error detail => throw (.conflict detail)
      | .ok row =>
          return { api.save id row with
            decidedAs := Function.update api.decidedAs id (some user.roleName) }

structure EffectReads where
  userExists : Bool
  revokeUser : Except String Unit
  executeAwsAction : Except String String

def effectOutcome (reads : EffectReads) (action : ResponseAction) : Except String ActionResult :=
  if action.actionType = .revokeAppSessions then
    match PyStr.uuid action.target with
    | none => .error "badly formed hexadecimal UUID string"
    | some userId =>
        if reads.userExists then
          match reads.revokeUser with
          | .ok _ => .ok (.sessionsRevoked userId)
          | .error error => .error error
        else .error "Target app user no longer exists"
  else
    match reads.executeAwsAction with
    | .ok requestId => .ok (.awsVerified requestId)
    | .error error => .error error

def finished (outcome : Except String ActionResult) (now : Timestamp) (action : ResponseAction) :
    ResponseAction :=
  match outcome with
  | .ok result => succeeded result now action
  | .error error => failed error now action

-- finishedAt is none when the worker dies after the claim
def executeOnce (id : Uuid) (reads : EffectReads) (startedAt : Timestamp)
    (finishedAt : Option Timestamp) (api : Api) : Api :=
  match api.actions.lookup id with
  | none => api
  | some action =>
      if isApproved action then
        let running := claimed startedAt action
        match finishedAt with
        | none => api.save id running
        | some now => api.save id (finished (effectOutcome reads running) now running)
      else api

inductive Request where
  -- user management: creation, role change, deactivation, deletion
  | saveUser (id : Uuid) (user : Option User)
  | propose (token : Option Uuid) (incidentId : Uuid) (payload : ResponseActionCreate)
      (incidentExists : Bool) (validRefs : List String) (targetUserExists : Bool) (id : Uuid)
      (now : Timestamp)
  | decide (token : Option Uuid) (id : Uuid) (decision : String) (now : Timestamp)
  | execute (id : Uuid) (reads : EffectReads) (startedAt : Timestamp)
      (finishedAt : Option Timestamp)

def handle (settings : Settings) (api : Api) : Request → Except HttpError Api
  | .saveUser id user => .ok { api with users := Function.update api.users id user }
  | .propose token incidentId payload incidentExists validRefs targetUserExists id now =>
      proposeEndpoint token incidentId payload incidentExists validRefs targetUserExists id now
        api
  | .decide token id decision now => decideEndpoint settings token id decision now api
  | .execute id reads startedAt finishedAt => .ok (executeOnce id reads startedAt finishedAt api)

def Api.step (settings : Settings) (api : Api) (request : Request) : Api :=
  match handle settings api request with
  | .ok api' => api'
  | .error _ => api

def Api.run (settings : Settings) (api : Api) (requests : List Request) : Api :=
  requests.foldl (Api.step settings) api

theorem Api.run_append (settings : Settings) (api : Api) (requests : List Request)
    (request : Request) :
    api.run settings (requests ++ [request]) = (api.run settings requests).step settings request := by
  simp [Api.run]

theorem requirePermission_ok {permission : Permission} {api : Api} {token : Option Uuid}
    {actor : Uuid × User} (h : requirePermission permission api token = .ok actor) :
    token = some actor.1 ∧ api.users actor.1 = some actor.2 ∧ actor.2.isActive = true ∧
      permission ∈ permissionsForRole actor.2.roleName := by
  cases token with
  | none => cases h
  | some userId =>
      simp only [requirePermission, getCurrentUser] at h
      cases huser : api.users userId with
      | none =>
          rw [huser] at h
          cases h
      | some user =>
          rw [huser] at h
          by_cases hactive : user.isActive = true
          · simp only [hactive, if_true] at h
            by_cases hperm : permission ∈ permissionsForRole user.roleName
            · have hactor : (userId, user) = actor := by
                simpa [bind, Except.bind, hperm, pure, Except.pure] using h
              subst hactor
              exact ⟨rfl, huser, hactive, hperm⟩
            · simp [bind, Except.bind, hperm, throw, throwThe, MonadExceptOf.throw] at h
          · simp only [hactive] at h
            cases h

theorem requirePermission_of {permission : Permission} {api : Api} {userId : Uuid} {user : User}
    (huser : api.users userId = some user) (hactive : user.isActive = true)
    (hperm : permission ∈ permissionsForRole user.roleName) :
    requirePermission permission api (some userId) = .ok (userId, user) := by
  simp [requirePermission, getCurrentUser, huser, hactive, hperm, bind, Except.bind, pure,
    Except.pure]

end ResponseActions
