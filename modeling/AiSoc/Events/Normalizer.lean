import AiSoc.Correlation.Service
import AiSoc.Library.PyDatetime

namespace Events

open Investigation (eventTypes severities)
open Permissions (Timestamp)
open PyDatetime PyJson

section Schemas

-- a wall clock reading and the offset of its zone, in microseconds
structure Datetime where
  wall : Int
  offset : Option Int
  wall_range : minimum ≤ wall ∧ wall ≤ maximum
  offset_range : ∀ shift ∈ offset, -microsecondsPerDay < shift ∧ shift < microsecondsPerDay

def isPort (n : Int) : Prop :=
  0 ≤ n ∧ n ≤ 65535

structure EventCreate where
  timestamp : Datetime
  source : String
  sourceType : String
  eventType : String
  category : String
  severity : Option String
  eventId : Option String
  username : Option String
  sourceIp : Option String
  destinationIp : Option String
  sourcePort : Option Int
  destinationPort : Option Int
  hostname : Option String
  action : Option String
  status : Option String
  resource : Option String
  bytesSent : Option Int
  bytesReceived : Option Int
  metadata : Obj
  aware : timestamp.offset ≠ none
  knownType : eventType ∈ eventTypes
  knownSeverity : ∀ level ∈ severity, level ∈ severities
  sourcePort_range : ∀ n ∈ sourcePort, isPort n
  destinationPort_range : ∀ n ∈ destinationPort, isPort n
  bytesSent_nonneg : ∀ n ∈ bytesSent, 0 ≤ n
  bytesReceived_nonneg : ∀ n ∈ bytesReceived, 0 ≤ n

end Schemas

section Normalize

theorem port_none : ∀ n ∈ (none : Option Int), isPort n := nofun

theorem nonneg_none : ∀ n ∈ (none : Option Int), 0 ≤ n := nofun

-- the columns of a row of events that its normalization and its rules read
structure Event extends Correlation.EventCreate where
  sourcePort : Option Int
  destinationPort : Option Int

-- the validator of the schema
def ensureTimestampHasTimezone (value : Datetime) : Datetime :=
  match value.offset with
  | some _ => value
  | none => ⟨value.wall, some 0, value.wall_range, by simp [microsecondsPerDay]⟩

-- value.astimezone(UTC)
def normalizeTimestamp (value : Datetime) : Option Timestamp :=
  match value.offset with
  | none => some value.wall
  | some offset => checked (value.wall - offset)

def normalize (payload : EventCreate) : Option Event :=
  (normalizeTimestamp payload.timestamp).map fun timestamp =>
    { eventId := payload.eventId
      timestamp := timestamp
      source := payload.source
      sourceType := payload.sourceType
      eventType := payload.eventType
      category := payload.category
      severity := payload.severity
      username := payload.username
      sourceIp := payload.sourceIp
      destinationIp := payload.destinationIp
      hostname := payload.hostname
      action := payload.action
      status := payload.status
      resource := payload.resource
      bytesSent := payload.bytesSent
      bytesReceived := payload.bytesReceived
      metadata := payload.metadata
      sourcePort := payload.sourcePort
      destinationPort := payload.destinationPort }

theorem ensured_aware (value : Datetime) : (ensureTimestampHasTimezone value).offset ≠ none := by
  rw [ensureTimestampHasTimezone]
  split
  · rename_i offset hoffset
    rw [hoffset]
    exact Option.some_ne_none offset
  · exact Option.some_ne_none 0

def utc (payload : EventCreate) : Int :=
  payload.timestamp.wall - payload.timestamp.offset.getD 0

theorem normalizeTimestamp_eq_some {payload : EventCreate} {timestamp : Timestamp} :
    normalizeTimestamp payload.timestamp = some timestamp ↔
      minimum ≤ utc payload ∧ utc payload ≤ maximum ∧ timestamp = utc payload := by
  obtain ⟨offset, hoffset⟩ := Option.ne_none_iff_exists'.mp payload.aware
  rw [normalizeTimestamp, utc, hoffset, Option.getD_some]
  exact checked_eq_some

end Normalize

end Events
