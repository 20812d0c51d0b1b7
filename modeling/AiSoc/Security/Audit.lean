import AiSoc.Auth.Service
import AiSoc.Library.Json
import AiSoc.Library.Varchar
import AiSoc.Security.Middleware

namespace Audit

open Permissions (Uuid RoleName Permission)
open PyJson Sql

structure AuditLog (Text : Nat → Type) where
  actorType : Text 32
  actorId : Option Uuid
  actorLabel : Option (Text 320)
  action : Text 128
  resourceType : Option (Text 64)
  resourceId : Option (Text 128)
  outcome : Text 32
  requestId : Option (Text 64)
  method : Option (Text 16)
  path : Option (Text 512)
  sourceIp : Option (Text 64)
  userAgent : Option (Text 512)
  details : Json

-- the object that the service builds, and the row that the table holds
abbrev Built := AuditLog fun _ => String
abbrev Stored := AuditLog Varchar

structure User where
  id : Uuid
  email : Varchar 320
  isActive : Bool
  roleName : RoleName

structure ApiKey where
  id : Uuid
  name : Varchar 128
  keyPrefix : Varchar 16
  scopes : List String

section Requests

inductive Method where
  | get
  | post
  | patch
  deriving DecidableEq

def Method.text : Method → String
  | .get => "GET"
  | .post => "POST"
  | .patch => "PATCH"

structure Request where
  headers : List (String × String)
  method : Method
  path : String
  clientHost : Option String

def Request.header (request : Request) (name : String) : String :=
  (request.headers.lookup name).getD ""

structure Metadata where
  requestId : Option String
  method : Option String
  path : Option String
  sourceIp : Option String
  userAgent : Option String

-- uuid4 is what the middleware draws for a request without an id
def requestMetadata (uuid4 : Uuid) (request : Request) : Metadata :=
  let userAgent := PyStr.slice 512 (request.header "user-agent")
  { requestId := some (Middleware.requestId uuid4 (request.header "x-request-id"))
    method := some request.method.text
    path := some request.path
    sourceIp := request.clientHost
    userAgent := if userAgent = "" then none else some userAgent }

end Requests

section Recording

variable (env : Auth.Env)

def sensitiveKeys : List String :=
  ["authorization", "cookie", "password", "password_hash", "refresh_token", "access_token",
    "api_key", "secret", "raw_payload"]

-- levels is 5 - depth
def sanitizeAuditDetails : Nat → Json → Json
  | 0, _ => .str "[truncated]"
  | levels + 1, .obj fields =>
      let kept := (fields.take 50).filter fun p => !sensitiveKeys.contains (env.casefold p.1)
      .obj (Obj.ofPairs (kept.map fun p => (PyStr.slice 128 p.1, sanitizeAuditDetails levels p.2)))
  | levels + 1, .arr items => .arr ((items.take 50).map (sanitizeAuditDetails levels))
  | _ + 1, .str s => .str (PyStr.slice 512 s)
  | _ + 1, value => value

-- the keyword arguments of record
structure Entry where
  action : String
  outcome : String
  actorType : String := "anonymous"
  actorId : Option Uuid := none
  actorLabel : Option String := none
  resourceType : Option String := none
  resourceId : Option String := none
  details : Obj := []

def auditLog (metadata : Metadata) (entry : Entry) (details : Json) : Built :=
  { actorType := entry.actorType
    actorId := entry.actorId
    actorLabel := entry.actorLabel
    action := entry.action
    resourceType := entry.resourceType
    resourceId := entry.resourceId
    outcome := entry.outcome
    requestId := metadata.requestId
    method := metadata.method
    path := metadata.path
    sourceIp := metadata.sourceIp
    userAgent := metadata.userAgent
    details }

def record (uuid4 : Uuid) (request : Request) (entry : Entry) : Built :=
  auditLog (requestMetadata uuid4 request) entry (sanitizeAuditDetails env 5 (.obj entry.details))

-- _audit_denial stores its details as they are and names no resource
def auditDenial (uuid4 : Uuid) (request : Request) (actorType action : String)
    (actorId : Option Uuid) (actorLabel : Option String) (details : Obj) : Built :=
  auditLog (requestMetadata uuid4 request)
    { action, outcome := "denied", actorType, actorId, actorLabel } (.obj details)

def insert (row : Built) : Option Stored := do
  let actorType ← assign 32 row.actorType
  let actorLabel ← assignNullable 320 row.actorLabel
  let action ← assign 128 row.action
  let resourceType ← assignNullable 64 row.resourceType
  let resourceId ← assignNullable 128 row.resourceId
  let outcome ← assign 32 row.outcome
  let requestId ← assignNullable 64 row.requestId
  let method ← assignNullable 16 row.method
  let path ← assignNullable 512 row.path
  let sourceIp ← assignNullable 64 row.sourceIp
  let userAgent ← assignNullable 512 row.userAgent
  return { row with
    actorType, actorLabel, action, resourceType, resourceId, outcome, requestId, method, path,
    sourceIp, userAgent }

-- a failing INSERT ends the transaction with nothing stored
def create (auditLogs : List Stored) (row : Built) : Option (List Stored) :=
  (insert row).map fun stored => auditLogs ++ [stored]

end Recording

section Fitting

structure Fits (row : Built) : Prop where
  actorType : Storable 32 row.actorType
  actorLabel : ∀ label ∈ row.actorLabel, Storable 320 label
  action : Storable 128 row.action
  resourceType : ∀ kind ∈ row.resourceType, Storable 64 kind
  resourceId : ∀ id ∈ row.resourceId, Storable 128 id
  outcome : Storable 32 row.outcome
  requestId : ∀ id ∈ row.requestId, Storable 64 id
  method : ∀ name ∈ row.method, Storable 16 name
  path : ∀ path ∈ row.path, Storable 512 path
  sourceIp : ∀ ip ∈ row.sourceIp, Storable 64 ip
  userAgent : ∀ agent ∈ row.userAgent, Storable 512 agent

def values (stored : Stored) : Built :=
  { stored with
    actorType := stored.actorType.value
    actorLabel := stored.actorLabel.map Varchar.value
    action := stored.action.value
    resourceType := stored.resourceType.map Varchar.value
    resourceId := stored.resourceId.map Varchar.value
    outcome := stored.outcome.value
    requestId := stored.requestId.map Varchar.value
    method := stored.method.map Varchar.value
    path := stored.path.map Varchar.value
    sourceIp := stored.sourceIp.map Varchar.value
    userAgent := stored.userAgent.map Varchar.value }

def Recorded (auditLogs : List Stored) (row : Built) : Prop :=
  ∃ stored, create auditLogs row = some (auditLogs ++ [stored]) ∧ values stored = row

theorem insert_of_fits {row : Built} (h : Fits row) :
    ∃ stored, insert row = some stored ∧ values stored = row := by
  obtain ⟨label, hlabel, hlabelValue⟩ := assignNullable_of_storable h.actorLabel
  obtain ⟨kind, hkind, hkindValue⟩ := assignNullable_of_storable h.resourceType
  obtain ⟨id, hid, hidValue⟩ := assignNullable_of_storable h.resourceId
  obtain ⟨request, hrequest, hrequestValue⟩ := assignNullable_of_storable h.requestId
  obtain ⟨name, hname, hnameValue⟩ := assignNullable_of_storable h.method
  obtain ⟨path, hpath, hpathValue⟩ := assignNullable_of_storable h.path
  obtain ⟨ip, hip, hipValue⟩ := assignNullable_of_storable h.sourceIp
  obtain ⟨agent, hagent, hagentValue⟩ := assignNullable_of_storable h.userAgent
  rw [insert, assign_of_storable h.actorType, assign_of_storable h.action, assign_of_storable h.outcome,
    hlabel, hkind, hid, hrequest, hname, hpath, hip, hagent]
  refine ⟨_, rfl, ?_⟩
  simp only [values, hlabelValue, hkindValue, hidValue, hrequestValue, hnameValue, hpathValue,
    hipValue, hagentValue]

theorem fits_of_values {stored : Stored} {row : Built} (h : values stored = row) : Fits row := by
  subst h
  constructor
  · exact stored.actorType.storable
  · exact storable_values _
  · exact stored.action.storable
  · exact storable_values _
  · exact storable_values _
  · exact stored.outcome.storable
  all_goals exact storable_values _

theorem recorded_iff {auditLogs : List Stored} {row : Built} :
    Recorded auditLogs row ↔ Fits row := by
  constructor
  · rintro ⟨stored, _, hvalues⟩
    exact fits_of_values hvalues
  · intro h
    obtain ⟨stored, hinsert, hvalues⟩ := insert_of_fits h
    refine ⟨stored, ?_, hvalues⟩
    rw [create, hinsert]
    rfl

end Fitting

end Audit
