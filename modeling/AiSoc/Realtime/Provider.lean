import AiSoc.Library.Suppression

namespace Realtime

open Suppression

section Messages

-- the fields that handleMessage reads, each of its own type or missing
structure RealtimeMessage where
  id : Option String
  type : Option String
  entityId : Option String
  version : Option Int
  incidentId : Option String
  deriving DecidableEq

abbrev QueryKey := List String

-- seenMessages and versions are the receiver
structure Provider where
  receiver : Receiver String String
  newEventCount : Nat
  invalidated : List QueryKey
  pongs : Nat

def Provider.start : Provider := ⟨.start, 0, [], 0⟩

def maxSeenMessages : Nat := 1000

def versionKey (type entityId : String) : String :=
  type ++ ":" ++ entityId

-- type.split(".")
def parts (type : String) : List String :=
  (type.toList.splitOn '.').map String.ofList

end Messages

section Handling

namespace Provider

def invalidate (p : Provider) (keys : List QueryKey) : Provider :=
  { p with invalidated := p.invalidated ++ keys }

def onEvent (p : Provider) (action : Option String) : Provider :=
  if action = some "created" then
    { p with newEventCount := p.newEventCount + 1 }.invalidate [["dashboard", "summary"]]
  else p

def onAlert (p : Provider) : Provider :=
  p.invalidate [["dashboard", "summary"], ["incidents"]]

def onIncident (p : Provider) (entityId : String) : Provider :=
  p.invalidate [["dashboard", "summary"], ["incidents"], ["incidents", entityId]]

def onInvestigation (p : Provider) (entityId : String) (incidentId : Option String) : Provider :=
  let p := p.invalidate [["investigations", entityId]]
  match incidentId with
  | some incident =>
      if incident = "" then p else p.invalidate [["incidents", incident, "investigations"]]
  | none => p

def onResponse (p : Provider) (incidentId : Option String) : Provider :=
  match incidentId with
  | some incident =>
      if incident = "" then p else p.invalidate [["incidents", incident, "response-actions"]]
  | none => p

-- what handleMessage does with a message that it keeps
def react (p : Provider) (type entityId : String) (incidentId : Option String) : Provider :=
  let entity := (parts type)[0]?
  let action := (parts type)[1]?
  if entity = some "event" then p.onEvent action
  else if entity = some "alert" then p.onAlert
  else if entity = some "incident" then p.onIncident entityId
  else if entity = some "investigation" then p.onInvestigation entityId incidentId
  else if entity = some "response" then p.onResponse incidentId
  else p

def accept (p : Provider) (id type entityId : String) (version : Int)
    (incidentId : Option String) : Provider :=
  let offered := p.receiver.offer maxSeenMessages (-1) ⟨id, versionKey type entityId, version⟩
  let p := { p with receiver := offered.1 }
  if offered.2 then p.react type entityId incidentId else p

-- none is a text that JSON.parse refuses
def handleMessage (p : Provider) : Option RealtimeMessage → Provider
  | none => p
  | some message =>
      if message.type = some "system.heartbeat" then { p with pongs := p.pongs + 1 }
      else
        match message.id, message.type, message.entityId, message.version with
        | some id, some type, some entityId, some version =>
            if id = "" ∨ type = "" ∨ entityId = "" then p
            else p.accept id type entityId version message.incidentId
        | _, _, _, _ => p

end Provider

end Handling

end Realtime
