import AiSoc.Security.Audit

namespace Audit

open Permissions (Uuid RoleName Permission permissionsForRole)
open PyJson Sql

section Sites

variable (env : Auth.Env)

def byUser (actor : User) (action outcome : String) : Entry :=
  { action, outcome, actorType := "user", actorId := some actor.id
    actorLabel := some actor.email.value }

def onResource (entry : Entry) (resourceType : String) (id : Uuid) (details : Obj) : Entry :=
  { entry with
    resourceType := some resourceType, resourceId := some (PyStr.uuidText id), details }

def byKey (principal : ApiKey) (action resourceType : String) (details : Obj) : Entry :=
  { action, outcome := "success", actorType := "api_key", actorId := some principal.id
    actorLabel := some principal.name.value, resourceType := some resourceType, details }

-- none when the SELECT fails, on a text with a NUL
def getByEmail (users : List User) (email : String) : Option (Option User) :=
  if nul ∈ email.toList then none
  else some (users.find? fun user => user.email.value = email)

-- none when the request fails before the audit call
def login (users : List User) (limited validPassword : Bool) (email : String) : Option Entry :=
  let normalized := env.normalizeEmail email
  if limited then
    some { action := "auth.login", outcome := "rate_limited", actorLabel := some normalized }
  else
    (getByEmail users normalized).map fun found =>
      match found with
      | none => { action := "auth.login", outcome := "failure", actorLabel := some normalized }
      | some user =>
          if !validPassword || !user.isActive then
            { action := "auth.login", outcome := "failure", actorId := some user.id
              actorLabel := some normalized }
          else byUser user "auth.login" "success"

def register (users : List User) (limited : Bool) (email : String) (userId : Uuid) :
    Option Entry := do
  let normalized := env.normalizeEmail email
  if limited then
    return { action := "auth.register", outcome := "rate_limited", actorLabel := some normalized }
  let existing ← getByEmail users normalized
  if existing.isSome then
    return { action := "auth.register", outcome := "failure", actorLabel := some normalized }
  -- the INSERT of the new user
  let _ ← assign 320 normalized
  return { action := "auth.register", outcome := "success", actorType := "user"
           actorId := some userId, actorLabel := some normalized }

def auditRefreshFailure : Option User → Entry
  | some user => byUser user "auth.refresh" "failure"
  | none => { action := "auth.refresh", outcome := "failure" }

def logout (actorId : Option Uuid) : Entry :=
  { action := "auth.logout", outcome := "success"
    actorType := if actorId.isSome then "user" else "anonymous", actorId }

structure UserUpdate where
  fullName : Option (Varchar 255)
  roleName : Option RoleName
  isActive : Option Bool

-- model_dump(exclude_none=True)
def UserUpdate.dump (payload : UserUpdate) : Obj :=
  (payload.fullName.map fun s => ("full_name", Json.str s.value)).toList ++
    (payload.roleName.map fun role => ("role_name", Json.str role.text)).toList ++
    (payload.isActive.map fun b => ("is_active", Json.bool b)).toList

inductive Decision where
  | approve
  | reject
  deriving DecidableEq

def Decision.action : Decision → String
  | .approve => "response.approve"
  | .reject => "response.reject"

-- where a request reaches record or _audit_denial, with what is in scope there
inductive Site where
  | login (users : List User) (limited validPassword : Bool) (email : String)
  | register (users : List User) (limited : Bool) (email : String) (userId : Uuid)
  | refreshFailure (user : Option User)
  | refreshReuse (userId : Uuid)
  | refresh (user : User)
  | logout (actorId : Option Uuid)
  | changePassword (user : User) (validPassword : Bool)
  | createApiKey (actor : User) (key : ApiKey)
  | revokeApiKey (actor : User) (key : ApiKey)
  | createUser (actor user : User)
  | updateUser (actor user : User) (payload : UserUpdate)
  | proposeAction (actor : User) (actionId incidentId : Uuid) (actionType : String)
  | decideAction (actor : User) (decision : Decision) (actionId : Uuid) (actionType : String)
  | ingestFindings (principal : ApiKey) (accepted duplicates inactiveSkipped : Nat)
  | requestInvestigation (actor : User) (investigationId incidentId : Uuid)
  | createIncident (actor : User) (incidentId : Uuid) (preset : String)
  | createEvent (principal : ApiKey) (eventId : Varchar 128)
  | createEventsBulk (principal : ApiKey) (count : Nat)
  | createEvidence (actor : User) (evidenceId incidentId : Uuid) (kind : String)
      (sensitiveRedacted : Bool)
  | currentUser
  | requirePermission (user : User) (permission : Permission)
  | requireIngestKey (key : Option ApiKey)

def incidentRef (incidentId : Uuid) : String × Json :=
  ("incident_id", .str (PyStr.uuidText incidentId))

-- the arguments that the site passes to record
def Site.entry : Site → Option Entry
  | .login users limited validPassword email =>
      Audit.login env users limited validPassword email
  | .register users limited email userId => Audit.register env users limited email userId
  | .refreshFailure user => some (auditRefreshFailure user)
  | .refreshReuse userId =>
      some { action := "auth.refresh_reuse", outcome := "failure", actorType := "user"
             actorId := some userId }
  | .refresh user => some (byUser user "auth.refresh" "success")
  | .logout actorId => some (Audit.logout actorId)
  | .changePassword user validPassword =>
      some (byUser user "auth.password_change" (if validPassword then "success" else "failure"))
  | .createApiKey actor key =>
      some (onResource (byUser actor "api_key.create" "success") "api_key" key.id
        [("name", .str key.name.value), ("prefix", .str key.keyPrefix.value),
          ("scopes", .arr (key.scopes.map .str))])
  | .revokeApiKey actor key =>
      some (onResource (byUser actor "api_key.revoke" "success") "api_key" key.id [])
  | .createUser actor user =>
      some (onResource (byUser actor "user.create" "success") "user" user.id
        [("email", .str user.email.value), ("role", .str user.roleName.text)])
  | .updateUser actor user payload =>
      some (onResource (byUser actor "user.update" "success") "user" user.id payload.dump)
  | .proposeAction actor actionId incidentId actionType =>
      some (onResource (byUser actor "response.propose" "success") "response_action" actionId
        [("action_type", .str actionType), incidentRef incidentId])
  | .decideAction actor decision actionId actionType =>
      some (onResource (byUser actor decision.action "success") "response_action" actionId
        [("action_type", .str actionType)])
  | .ingestFindings principal accepted duplicates inactiveSkipped =>
      some (byKey principal "aws.findings.ingest" "aws_finding"
        [("accepted", .int accepted), ("duplicates", .int duplicates),
          ("inactive_skipped", .int inactiveSkipped)])
  | .requestInvestigation actor investigationId incidentId =>
      some (onResource (byUser actor "investigation.request" "success") "investigation"
        investigationId [incidentRef incidentId])
  | .createIncident actor incidentId preset =>
      some (onResource (byUser actor "incident.create" "success") "incident" incidentId
        [("preset", .str preset)])
  | .createEvent principal eventId =>
      some { byKey principal "events.ingest" "event" [("count", .int 1)] with
             resourceId := some eventId.value }
  | .createEventsBulk principal count =>
      some (byKey principal "events.ingest_bulk" "event" [("count", .int count)])
  | .createEvidence actor evidenceId incidentId kind sensitiveRedacted =>
      some (onResource (byUser actor "incident.evidence.add" "success") "incident_evidence"
        evidenceId
        [incidentRef incidentId, ("kind", .str kind), ("sensitive_redacted", .bool sensitiveRedacted)])
  | .currentUser | .requirePermission .. | .requireIngestKey _ => none

-- the row that the request builds there, when it reaches the call
def Site.row (uuid4 : Uuid) (request : Request) : Site → Option Built
  | .currentUser =>
      some (auditDenial uuid4 request "anonymous" "authorization.authenticate" none none [])
  | .requirePermission user permission =>
      if permission ∈ permissionsForRole user.roleName then none
      else
        some (auditDenial uuid4 request "user" "authorization.denied" (some user.id)
          (some user.email.value) [("permission", .str permission.value)])
  | .requireIngestKey key =>
      some (auditDenial uuid4 request (if key.isSome then "api_key" else "anonymous")
        "authorization.ingest_denied" (key.map ApiKey.id) (key.map fun k => k.name.value) [])
  | site => (site.entry env).map (record env uuid4 request)

end Sites

section Lengths

structure Entry.Bounded (entry : Entry) : Prop where
  actorType : Storable 32 entry.actorType
  action : Storable 128 entry.action
  resourceType : ∀ kind ∈ entry.resourceType, Storable 64 kind
  resourceId : ∀ id ∈ entry.resourceId, Storable 128 id
  outcome : Storable 32 entry.outcome

def Entry.LabelFits (entry : Entry) : Prop :=
  ∀ label ∈ entry.actorLabel, Storable 320 label

theorem bounded_plain {entry : Entry} (htype : Storable 32 entry.actorType)
    (haction : Storable 128 entry.action) (houtcome : Storable 32 entry.outcome)
    (hkind : entry.resourceType = none) (hid : entry.resourceId = none) : entry.Bounded := by
  refine ⟨htype, haction, ?_, ?_, houtcome⟩
  · rw [hkind]
    exact storable_none
  · rw [hid]
    exact storable_none

theorem actorType_user : Storable 32 "user" := by decide

theorem outcome_success : Storable 32 "success" := by decide

theorem outcome_failure : Storable 32 "failure" := by decide

theorem bounded_client {action outcome actorType : String} (htype : Storable 32 actorType)
    (haction : Storable 128 action) (houtcome : Storable 32 outcome) (actorId : Option Uuid)
    (actorLabel : Option String) :
    ({ action, outcome, actorType, actorId, actorLabel } : Entry).Bounded :=
  bounded_plain htype haction houtcome rfl rfl

theorem bounded_byUser (actor : User) {action outcome : String} (haction : Storable 128 action)
    (houtcome : Storable 32 outcome) : (byUser actor action outcome).Bounded :=
  bounded_client actorType_user haction houtcome _ _

theorem bounded_onResource {entry : Entry} (h : entry.Bounded) {resourceType : String}
    (hkind : Storable 64 resourceType) (id : Uuid) (details : Obj) :
    (onResource entry resourceType id details).Bounded := by
  have hid : Storable 128 (PyStr.uuidText id) := storable_uuidText id (by decide)
  exact ⟨h.actorType, h.action, storable_some.2 hkind, storable_some.2 hid, h.outcome⟩

theorem bounded_byKey (principal : ApiKey) {action resourceType : String}
    (haction : Storable 128 action) (hkind : Storable 64 resourceType) (details : Obj) :
    (byKey principal action resourceType details).Bounded := by
  have htype : Storable 32 "api_key" := by decide
  exact ⟨htype, haction, storable_some.2 hkind, storable_none, outcome_success⟩

theorem labelFits_byUser (actor : User) (action outcome : String) :
    (byUser actor action outcome).LabelFits :=
  storable_some.2 actor.email.storable

theorem labelFits_byKey (principal : ApiKey) (action resourceType : String) (details : Obj) :
    (byKey principal action resourceType details).LabelFits :=
  storable_some.2 (principal.name.storable.mono (by decide))

end Lengths

section Clients

variable {env : Auth.Env}

def Site.clientEmail : Site → Option String
  | .login _ _ _ email => some email
  | .register _ _ email _ => some email
  | _ => none

def Site.EmailFits (env : Auth.Env) (site : Site) : Prop :=
  ∀ email ∈ site.clientEmail, Storable 320 (env.normalizeEmail email)

theorem emailFits_of_none {site : Site} (h : site.clientEmail = none) : site.EmailFits env := by
  intro email hemail
  rw [h] at hemail
  cases hemail

theorem emailFits_of_some {site : Site} {email : String} (h : site.clientEmail = some email) :
    site.EmailFits env ↔ Storable 320 (env.normalizeEmail email) := by
  constructor
  · intro hfits
    exact hfits email h
  · intro hfits other hother
    rw [h, Option.mem_some_iff] at hother
    exact hother ▸ hfits

structure Entry.OfClient (entry : Entry) (normalized : String) : Prop where
  bounded : entry.Bounded
  label : entry.actorLabel = some normalized

theorem ofClient {action outcome actorType : String} (htype : Storable 32 actorType)
    (haction : Storable 128 action) (houtcome : Storable 32 outcome) (actorId : Option Uuid)
    (normalized : String) :
    ({ action, outcome, actorType, actorId, actorLabel := some normalized } : Entry).OfClient
      normalized :=
  ⟨bounded_client htype haction houtcome actorId _, rfl⟩

theorem email_of_getByEmail {users : List User} {email : String} {user : User}
    (h : getByEmail users email = some (some user)) : user.email.value = email := by
  unfold getByEmail at h
  split at h
  · cases h
  · have hemail := List.find?_some (Option.some.inj h)
    rwa [decide_eq_true_iff] at hemail

theorem login_ofClient {users : List User} {limited validPassword : Bool} {email : String}
    {entry : Entry} (h : login env users limited validPassword email = some entry) :
    entry.OfClient (env.normalizeEmail email) := by
  unfold login at h
  simp only at h
  split at h
  · cases h
    exact ofClient (by decide) (by decide) (by decide) none _
  · rw [Option.map_eq_some_iff] at h
    obtain ⟨found, hfound, rfl⟩ := h
    cases found with
    | none => exact ofClient (by decide) (by decide) outcome_failure none _
    | some user =>
        simp only
        split
        · exact ofClient (by decide) (by decide) outcome_failure (some user.id) _
        · exact ⟨bounded_byUser user (by decide) outcome_success,
            congrArg some (email_of_getByEmail hfound)⟩

theorem register_ofClient {users : List User} {limited : Bool} {email : String} {userId : Uuid}
    {entry : Entry} (h : register env users limited email userId = some entry) :
    entry.OfClient (env.normalizeEmail email) := by
  unfold register at h
  simp only at h
  split at h
  · cases h
    exact ofClient (by decide) (by decide) (by decide) none _
  · simp only [Option.bind_eq_bind, Option.bind_eq_some_iff] at h
    obtain ⟨existing, _, h⟩ := h
    split at h
    · cases h
      exact ofClient (by decide) (by decide) outcome_failure none _
    · simp only [Option.bind_eq_some_iff] at h
      obtain ⟨_, _, h⟩ := h
      cases h
      exact ofClient actorType_user (by decide) outcome_success (some userId) _

structure Site.Passes (env : Auth.Env) (site : Site) (entry : Entry) : Prop where
  bounded : entry.Bounded
  label : entry.LabelFits ↔ site.EmailFits env

theorem passes_stored {site : Site} {entry : Entry} (hsite : site.clientEmail = none)
    (hbounded : entry.Bounded) (hlabel : entry.LabelFits) : site.Passes env entry :=
  ⟨hbounded, fun _ => emailFits_of_none hsite, fun _ => hlabel⟩

theorem passes_client {site : Site} {entry : Entry} {email : String}
    (hsite : site.clientEmail = some email) (h : entry.OfClient (env.normalizeEmail email)) :
    site.Passes env entry := by
  refine ⟨h.bounded, ?_⟩
  rw [emailFits_of_some hsite, Entry.LabelFits, h.label]
  exact storable_some

theorem passes_user {site : Site} (hsite : site.clientEmail = none) (actor : User)
    {action outcome : String} (haction : Storable 128 action) (houtcome : Storable 32 outcome) :
    site.Passes env (byUser actor action outcome) :=
  passes_stored hsite (bounded_byUser actor haction houtcome) (labelFits_byUser actor _ _)

theorem passes_resource {site : Site} (hsite : site.clientEmail = none) (actor : User)
    {action resourceType : String} (haction : Storable 128 action)
    (hkind : Storable 64 resourceType) (id : Uuid) (details : Obj) :
    site.Passes env (onResource (byUser actor action "success") resourceType id details) :=
  passes_stored hsite
    (bounded_onResource (bounded_byUser actor haction outcome_success) hkind id details)
    (labelFits_byUser actor action "success")

theorem passes_key {site : Site} (hsite : site.clientEmail = none) (principal : ApiKey)
    {action resourceType : String} (haction : Storable 128 action)
    (hkind : Storable 64 resourceType) (details : Obj) :
    site.Passes env (byKey principal action resourceType details) :=
  passes_stored hsite (bounded_byKey principal haction hkind details)
    (labelFits_byKey principal action resourceType details)

theorem passes_anonymous {site : Site} {action outcome actorType : String}
    (hsite : site.clientEmail = none) (htype : Storable 32 actorType)
    (haction : Storable 128 action) (houtcome : Storable 32 outcome) (actorId : Option Uuid) :
    site.Passes env { action, outcome, actorType, actorId } :=
  passes_stored hsite (bounded_client htype haction houtcome actorId none) storable_none

theorem decision_storable (decision : Decision) : Storable 128 decision.action := by
  cases decision <;> decide

theorem entry_passes {site : Site} {entry : Entry} (h : site.entry env = some entry) :
    site.Passes env entry := by
  cases site with
  | login users limited validPassword email => exact passes_client rfl (login_ofClient h)
  | register users limited email userId => exact passes_client rfl (register_ofClient h)
  | refreshFailure user =>
      cases h
      cases user with
      | none => exact passes_anonymous rfl (by decide) (by decide) outcome_failure none
      | some user => exact passes_user rfl user (by decide) outcome_failure
  | refreshReuse userId =>
      cases h
      exact passes_anonymous rfl actorType_user (by decide) outcome_failure (some userId)
  | refresh user =>
      cases h
      exact passes_user rfl user (by decide) outcome_success
  | logout actorId =>
      cases h
      have htype : Storable 32 (if actorId.isSome then "user" else "anonymous") := by
        split <;> decide
      exact passes_anonymous rfl htype (by decide) outcome_success actorId
  | changePassword user validPassword =>
      cases h
      have houtcome : Storable 32 (if validPassword then "success" else "failure") := by
        split <;> decide
      exact passes_user rfl user (by decide) houtcome
  | createApiKey actor key =>
      cases h
      exact passes_resource rfl actor (by decide) (by decide) key.id _
  | revokeApiKey actor key =>
      cases h
      exact passes_resource rfl actor (by decide) (by decide) key.id _
  | createUser actor user =>
      cases h
      exact passes_resource rfl actor (by decide) (by decide) user.id _
  | updateUser actor user payload =>
      cases h
      exact passes_resource rfl actor (by decide) (by decide) user.id _
  | proposeAction actor actionId incidentId actionType =>
      cases h
      exact passes_resource rfl actor (by decide) (by decide) actionId _
  | decideAction actor decision actionId actionType =>
      cases h
      exact passes_resource rfl actor (decision_storable decision) (by decide) actionId _
  | ingestFindings principal accepted duplicates inactiveSkipped =>
      cases h
      exact passes_key rfl principal (by decide) (by decide) _
  | requestInvestigation actor investigationId incidentId =>
      cases h
      exact passes_resource rfl actor (by decide) (by decide) investigationId _
  | createIncident actor incidentId preset =>
      cases h
      exact passes_resource rfl actor (by decide) (by decide) incidentId _
  | createEvent principal eventId =>
      cases h
      have hkey : (byKey principal "events.ingest" "event" [("count", .int 1)]).Bounded :=
        bounded_byKey principal (by decide) (by decide) _
      exact passes_stored rfl
        ⟨hkey.actorType, hkey.action, hkey.resourceType, storable_some.2 eventId.storable, hkey.outcome⟩
        (labelFits_byKey principal "events.ingest" "event" [("count", .int 1)])
  | createEventsBulk principal count =>
      cases h
      exact passes_key rfl principal (by decide) (by decide) _
  | createEvidence actor evidenceId incidentId kind sensitiveRedacted =>
      cases h
      exact passes_resource rfl actor (by decide) (by decide) evidenceId _
  | currentUser => cases h
  | requirePermission user permission => cases h
  | requireIngestKey key => cases h

end Clients

section Rows

variable {env : Auth.Env}

structure Auditable (env : Auth.Env) (request : Request) (site : Site) : Prop where
  requestId : Storable 64 (request.header "x-request-id")
  path : Storable 512 request.path
  sourceIp : ∀ host ∈ request.clientHost, Storable 64 host
  userAgent : nul ∉ (PyStr.slice 512 (request.header "user-agent")).toList
  email : site.EmailFits env

theorem method_storable (method : Method) : Storable 16 method.text := by
  cases method <;> decide

theorem userAgent_storable (uuid4 : Uuid) (request : Request) :
    (∀ agent ∈ (requestMetadata uuid4 request).userAgent, Storable 512 agent) ↔
      nul ∉ (PyStr.slice 512 (request.header "user-agent")).toList := by
  unfold requestMetadata
  simp only
  split
  · rename_i hempty
    rw [hempty]
    constructor
    · intro _
      decide
    · intro _
      exact storable_none
  · rw [storable_some]
    constructor
    · intro h
      exact h.clean
    · intro h
      refine ⟨?_, h⟩
      rw [PyStr.length_slice]
      exact Nat.min_le_left _ _

theorem fits_auditLog {uuid4 : Uuid} {request : Request} {site : Site} {entry : Entry}
    (h : site.Passes env entry) (details : Json) :
    Fits (auditLog (requestMetadata uuid4 request) entry details) ↔ Auditable env request site := by
  have hid := Middleware.requestId_storable uuid4 (request.header "x-request-id")
    (n := 64) (by decide) (by decide)
  constructor
  · intro hfits
    exact ⟨hid.1 (storable_some.1 hfits.requestId), storable_some.1 hfits.path, hfits.sourceIp,
      (userAgent_storable uuid4 request).1 hfits.userAgent, h.label.1 hfits.actorLabel⟩
  · intro hrequest
    exact ⟨h.bounded.actorType, h.label.2 hrequest.email, h.bounded.action,
      h.bounded.resourceType, h.bounded.resourceId, h.bounded.outcome,
      storable_some.2 (hid.2 hrequest.requestId),
      storable_some.2 (method_storable request.method), storable_some.2 hrequest.path,
      hrequest.sourceIp, (userAgent_storable uuid4 request).2 hrequest.userAgent⟩

theorem row_form {uuid4 : Uuid} {request : Request} {site : Site} {row : Built}
    (h : site.row env uuid4 request = some row) :
    ∃ entry details, row = auditLog (requestMetadata uuid4 request) entry details ∧
      site.Passes env entry := by
  have hdenied : Storable 32 "denied" := by decide
  have hentry : (site.entry env).map (record env uuid4 request) = some row →
      ∃ entry details, row = auditLog (requestMetadata uuid4 request) entry details ∧
        site.Passes env entry := by
    intro hrow
    rw [Option.map_eq_some_iff] at hrow
    obtain ⟨entry, hsite, rfl⟩ := hrow
    exact ⟨entry, _, rfl, entry_passes hsite⟩
  cases site with
  | currentUser =>
      cases h
      exact ⟨_, _, rfl, passes_anonymous rfl (by decide) (by decide) hdenied none⟩
  | requirePermission user permission =>
      rw [Site.row] at h
      split at h
      · cases h
      · cases h
        exact ⟨_, _, rfl, passes_stored rfl
          (bounded_client actorType_user (by decide) hdenied _ _) (storable_some.2 user.email.storable)⟩
  | requireIngestKey key =>
      cases h
      refine ⟨_, _, rfl, passes_stored rfl (bounded_client ?_ (by decide) hdenied _ _) ?_⟩
      · split <;> decide
      · cases key with
        | none => exact storable_none
        | some key => exact storable_some.2 (key.name.storable.mono (by decide))
  | _ => exact hentry h

def longId : Request where
  headers := [("x-request-id", String.ofList (List.replicate 65 'a'))]
  method := .post
  path := "/api/v1/auth/refresh"
  clientHost := some "203.0.113.9"

def shortId : Request where
  headers := [("x-request-id", "trace-1")]
  method := .post
  path := "/api/v1/auth/login"
  clientHost := some "203.0.113.9"

end Rows

end Audit
