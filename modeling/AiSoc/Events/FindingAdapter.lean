import AiSoc.Events.Normalizer
import AiSoc.Library.Except
import AiSoc.Library.IsoFormat
import Mathlib.Data.List.Infix

namespace Findings

open Events (Datetime EventCreate nonneg_none port_none)
open Investigation (severities)
open PyDatetime PyJson PyStr

section Activity

-- value or default
def orJson (value : Option Json) (default : Json) : Json :=
  match value with
  | some v => if truthy v then v else default
  | none => default

def orText (py : PyText) (value : Option Json) (default : String) : String :=
  py.str (orJson value (.str default))

def isActiveFinding (py : PyText) (finding : Obj) : Except String Bool :=
  match orJson (finding.get "Workflow") (.obj []) with
  | .obj workflow =>
      .ok (py.upper (orText py (finding.get "RecordState") "ACTIVE") = "ACTIVE" ∧
        py.upper (orText py (Obj.get workflow "Status") "NEW") ∉ ["RESOLVED", "SUPPRESSED"])
  | _ => .error "Finding Workflow must be an object"

end Activity

section Fields

-- isdigit and the error of fromisoformat are Python's, sha256 is the hexadecimal digest of a text
structure Env extends Correlation.Env where
  isdigit : String → Bool
  isoformatError : String → String
  sha256 : String → String

variable (env : Env) (finding : Obj)

def findingIdentity : Except String (String × String) :=
  match finding.get "AwsAccountId", finding.get "Id" with
  | some (.str account), some (.str findingId) =>
      if findingId = "" ∨ account.length ≠ 12 ∨ env.isdigit account = false then
        .error "Finding requires Id and AwsAccountId"
      else .ok (account, findingId)
  | _, _ => .error "Finding requires Id and AwsAccountId"

def updatedAt : Json :=
  orJson (finding.get "UpdatedAt") ((finding.get "CreatedAt").getD .null)

def updatedText : Except String String :=
  match updatedAt finding with
  | .str updated => .ok updated
  | _ => .error "Finding requires UpdatedAt or CreatedAt"

-- updated.replace("Z", "+00:00")
def replaceZulu (updated : String) : String :=
  String.ofList (updated.toList.flatMap fun c => if c = 'Z' then "+00:00".toList else [c])

def findingTimestamp (updated : String) : Except String Datetime :=
  match h : fromisoformat (replaceZulu updated) with
  | some (wall, offset) =>
      .ok (Events.ensureTimestampHasTimezone
        ⟨wall, offset, (fromisoformat_range h).1, (fromisoformat_range h).2⟩)
  | none => .error (env.isoformatError (replaceZulu updated))

def findingResource : Except String Obj :=
  match orJson (finding.get "Resources") (.arr []) with
  | .arr (.obj resource :: _) => .ok resource
  | .arr _ => .ok []
  | _ => .error "Finding Resources must be a list"

def findingKind : Except String String :=
  match orJson (finding.get "Types") (.arr [.str "cloud_finding"]) with
  | .arr (.str kind :: _) => .ok (slice 128 kind)
  | _ => .error "Finding Types must be a non-empty list of strings"

def severityData : Except String Obj :=
  match orJson (finding.get "Severity") (.obj []) with
  | .obj data => .ok data
  | _ => .error "Finding Severity must be an object"

end Fields

section Conversion

variable (env : Env)

def severityOf (data : Obj) : String :=
  let label := env.text.lower (orText env.text (data.get "Label") "MEDIUM")
  if label ∈ severities then label else "medium"

def contains (part text : String) : Bool :=
  part.toList <:+: text.toList

def eventTypeOf (kind : String) : String :=
  if contains "s3" (env.text.lower kind) ∧ contains "public" (env.text.lower kind) then
    "s3_public_exposure"
  else "cloud_finding"

-- str(value or "")[:n] or None
def optionalText (n : Nat) (value : Option Json) : Option String :=
  let text := slice n (orText env.text value "")
  if text = "" then none else some text

structure Identity where
  account : String
  findingId : String
  updated : String
  deriving DecidableEq

def idText (identity : Identity) : String :=
  identity.account ++ ":" ++ identity.findingId ++ ":" ++ identity.updated

def eventId (identity : Identity) : String :=
  "asff_" ++ env.sha256 (idText identity)

-- the columns of the row that only a finding sets
structure FindingEvent extends EventCreate where
  resourceType : Option String

theorem eventTypeOf_known (kind : String) :
    eventTypeOf env kind ∈ Investigation.eventTypes := by
  rw [eventTypeOf]
  split
  · decide
  · decide

theorem severityOf_mem (data : Obj) : severityOf env data ∈ severities := by
  rw [severityOf]
  split
  · assumption
  · decide

theorem severityOf_known (data : Obj) : ∀ level ∈ some (severityOf env data),
    level ∈ severities := by
  intro level hlevel
  cases hlevel
  exact severityOf_mem env data

def findingEvent (identity : Identity) (timestamp : Datetime) (aware : timestamp.offset ≠ none)
    (finding resource data : Obj) (kind : String) : FindingEvent where
  eventId := some (eventId env identity)
  timestamp := timestamp
  source := "aws_security_hub"
  sourceType := "aws_security_hub"
  eventType := eventTypeOf env kind
  category := "security_finding"
  severity := some (severityOf env data)
  username := none
  sourceIp := none
  destinationIp := none
  sourcePort := none
  destinationPort := none
  hostname := none
  action := none
  status := none
  resource := optionalText env 255 (resource.get "Id")
  resourceType := optionalText env 128 (resource.get "Type")
  bytesSent := none
  bytesReceived := none
  metadata := [("account_id", .str (slice 64 identity.account)),
    ("provider_finding_id", .str (slice 512 identity.findingId)),
    ("finding_type", .str kind),
    ("title", .str (slice 255 (orText env.text (finding.get "Title") kind))),
    ("region", .str (slice 64 (orText env.text (finding.get "Region") "")))]
  aware := aware
  knownType := eventTypeOf_known env kind
  knownSeverity := severityOf_known env data
  sourcePort_range := port_none
  destinationPort_range := port_none
  bytesSent_nonneg := nonneg_none
  bytesReceived_nonneg := nonneg_none

theorem findingTimestamp_aware {updated : String} {timestamp : Datetime}
    (h : findingTimestamp env updated = .ok timestamp) : timestamp.offset ≠ none := by
  rw [findingTimestamp] at h
  split at h
  · cases h
    exact Events.ensured_aware _
  · cases h

def asffToEvent (finding : Obj) : Except String FindingEvent := do
  let (account, findingId) ← findingIdentity env finding
  let updated ← updatedText finding
  match h : findingTimestamp env updated with
  | .error detail => .error detail
  | .ok timestamp => do
      let resource ← findingResource finding
      let kind ← findingKind finding
      let data ← severityData finding
      .ok (findingEvent env ⟨account, findingId, updated⟩ timestamp
        (findingTimestamp_aware env h) finding resource data kind)

end Conversion

section WellFormed

def identityOf (finding : Obj) : Option Identity :=
  match finding.get "AwsAccountId", finding.get "Id", updatedAt finding with
  | some (.str account), some (.str findingId), .str updated => some ⟨account, findingId, updated⟩
  | _, _, _ => none

structure Identity.Valid (env : Env) (identity : Identity) : Prop where
  findingId : identity.findingId ≠ ""
  account : identity.account.length = 12
  digits : env.isdigit identity.account = true
  updated : ∃ reading, fromisoformat (replaceZulu identity.updated) = some reading

structure Convertible (env : Env) (finding : Obj) : Prop where
  identity : ∃ identity, identityOf finding = some identity ∧ identity.Valid env
  resources : ∃ items, orJson (finding.get "Resources") (.arr []) = .arr items
  types : ∃ kind rest,
    orJson (finding.get "Types") (.arr [.str "cloud_finding"]) = .arr (.str kind :: rest)
  severity : ∃ data, orJson (finding.get "Severity") (.obj []) = .obj data

inductive Malformed (env : Env) (finding : Obj) : Prop where
  | workflow (h : ∀ workflow, orJson (finding.get "Workflow") (.obj []) ≠ .obj workflow)
  | active (h : isActiveFinding env.text finding = .ok true) (malformed : ¬ Convertible env finding)

variable {env : Env} {finding : Obj}

theorem isActiveFinding_error : (∃ detail, isActiveFinding env.text finding = .error detail) ↔
    ∀ workflow, orJson (finding.get "Workflow") (.obj []) ≠ .obj workflow := by
  rw [isActiveFinding]
  split
  · rename_i workflow h
    exact iff_of_false nofun fun hne => hne workflow h
  · rename_i h
    exact iff_of_true ⟨_, rfl⟩ h

theorem findingIdentity_ok {account findingId : String} :
    findingIdentity env finding = .ok (account, findingId) ↔
      finding.get "AwsAccountId" = some (.str account) ∧
        finding.get "Id" = some (.str findingId) ∧
        findingId ≠ "" ∧ account.length = 12 ∧ env.isdigit account = true := by
  rw [findingIdentity]
  split
  · rename_i a i haccount hid
    rw [haccount, hid]
    split
    · rename_i hinvalid
      refine iff_of_false nofun ?_
      rintro ⟨ha, hi, hne, hlength, hdigits⟩
      cases ha
      cases hi
      rcases hinvalid with hempty | hshort | hletters
      · exact hne hempty
      · exact hshort hlength
      · rw [hdigits] at hletters
        cases hletters
    · rename_i hvalid
      simp only [not_or, not_not, Bool.not_eq_false] at hvalid
      constructor
      · intro h
        cases h
        exact ⟨rfl, rfl, hvalid.1, hvalid.2.1, hvalid.2.2⟩
      · rintro ⟨ha, hi, _⟩
        cases ha
        cases hi
        rfl
  · rename_i hother
    refine iff_of_false nofun ?_
    rintro ⟨ha, hi, _⟩
    exact hother account findingId ha hi

theorem updatedText_ok {updated : String} :
    updatedText finding = .ok updated ↔ updatedAt finding = .str updated := by
  rw [updatedText]
  split
  · rename_i text h
    rw [h]
    constructor
    · intro h
      cases h
      rfl
    · intro h
      cases h
      rfl
  · rename_i hother
    exact iff_of_false nofun fun h => hother updated h

theorem findingTimestamp_ok {updated : String} :
    (∃ timestamp, findingTimestamp env updated = .ok timestamp) ↔
      ∃ reading, fromisoformat (replaceZulu updated) = some reading := by
  rw [findingTimestamp]
  split
  · rename_i wall offset h
    exact iff_of_true ⟨_, rfl⟩ ⟨_, h⟩
  · rename_i h
    simp [h]

theorem findingResource_ok : (∃ resource, findingResource finding = .ok resource) ↔
    ∃ items, orJson (finding.get "Resources") (.arr []) = .arr items := by
  rw [findingResource]
  split
  · rename_i resource rest h
    exact iff_of_true ⟨_, rfl⟩ ⟨_, h⟩
  · rename_i items _ h
    exact iff_of_true ⟨_, rfl⟩ ⟨_, h⟩
  · rename_i hother
    refine iff_of_false nofun ?_
    rintro ⟨items, h⟩
    exact hother items h

theorem findingKind_ok : (∃ kind, findingKind finding = .ok kind) ↔ ∃ kind rest,
    orJson (finding.get "Types") (.arr [.str "cloud_finding"]) = .arr (.str kind :: rest) := by
  rw [findingKind]
  split
  · rename_i kind rest h
    exact iff_of_true ⟨_, rfl⟩ ⟨_, _, h⟩
  · rename_i hother
    refine iff_of_false nofun ?_
    rintro ⟨kind, rest, h⟩
    exact hother kind rest h

theorem severityData_ok : (∃ data, severityData finding = .ok data) ↔
    ∃ data, orJson (finding.get "Severity") (.obj []) = .obj data := by
  rw [severityData]
  split
  · rename_i data h
    exact iff_of_true ⟨_, rfl⟩ ⟨_, h⟩
  · rename_i hother
    refine iff_of_false nofun ?_
    rintro ⟨data, h⟩
    exact hother data h

theorem identityOf_eq_some {identity : Identity} : identityOf finding = some identity ↔
    finding.get "AwsAccountId" = some (.str identity.account) ∧
      finding.get "Id" = some (.str identity.findingId) ∧
      updatedAt finding = .str identity.updated := by
  rw [identityOf]
  split
  · rename_i account findingId updated haccount hid hupdated
    rw [haccount, hid, hupdated]
    constructor
    · intro h
      cases h
      exact ⟨rfl, rfl, rfl⟩
    · rintro ⟨ha, hi, hu⟩
      cases ha
      cases hi
      cases hu
      rfl
  · rename_i hother
    refine iff_of_false nofun ?_
    rintro ⟨ha, hi, hu⟩
    exact hother _ _ _ ha hi hu

theorem asffToEvent_ok {event : FindingEvent} (h : asffToEvent env finding = .ok event) :
    Convertible env finding ∧ ∃ identity timestamp aware resource data kind,
      identityOf finding = some identity ∧
      event = findingEvent env identity timestamp aware finding resource data kind := by
  obtain ⟨⟨account, findingId⟩, hidentity, h⟩ := Except.bind_ok_iff.mp h
  obtain ⟨updated, hupdated, h⟩ := Except.bind_ok_iff.mp h
  obtain ⟨haccount, hid, hne, hlength, hdigits⟩ := findingIdentity_ok.mp hidentity
  have hidentity : identityOf finding = some ⟨account, findingId, updated⟩ :=
    identityOf_eq_some.mpr ⟨haccount, hid, updatedText_ok.mp hupdated⟩
  split at h
  · cases h
  · rename_i timestamp htimestamp
    obtain ⟨resource, hresource, h⟩ := Except.bind_ok_iff.mp h
    obtain ⟨kind, hkind, h⟩ := Except.bind_ok_iff.mp h
    obtain ⟨data, hdata, h⟩ := Except.bind_ok_iff.mp h
    cases h
    have hreading := findingTimestamp_ok.mp ⟨timestamp, htimestamp⟩
    refine ⟨⟨⟨_, hidentity, hne, hlength, hdigits, hreading⟩, ?_, ?_, ?_⟩, _, _, _, _, _, _,
      hidentity, rfl⟩
    · exact findingResource_ok.mp ⟨resource, hresource⟩
    · exact findingKind_ok.mp ⟨kind, hkind⟩
    · exact severityData_ok.mp ⟨data, hdata⟩

theorem asffToEvent_of_convertible (h : Convertible env finding) :
    ∃ event, asffToEvent env finding = .ok event := by
  obtain ⟨⟨identity, hidentity, hvalid⟩, hresources, htypes, hseverity⟩ := h
  obtain ⟨haccount, hid, hupdated⟩ := identityOf_eq_some.mp hidentity
  obtain ⟨timestamp, htimestamp⟩ := findingTimestamp_ok.mpr hvalid.updated
  obtain ⟨resource, hresource⟩ := findingResource_ok.mpr hresources
  obtain ⟨kind, hkind⟩ := findingKind_ok.mpr htypes
  obtain ⟨data, hdata⟩ := severityData_ok.mpr hseverity
  have hfields := findingIdentity_ok.mpr
    ⟨haccount, hid, hvalid.findingId, hvalid.account, hvalid.digits⟩
  refine ⟨findingEvent env identity timestamp (findingTimestamp_aware env htimestamp) finding
    resource data kind, ?_⟩
  refine Except.bind_ok_iff.mpr ⟨_, hfields, ?_⟩
  refine Except.bind_ok_iff.mpr ⟨_, updatedText_ok.mpr hupdated, ?_⟩
  split
  · rename_i herror
    rw [htimestamp] at herror
    cases herror
  · rename_i found hfound
    obtain rfl : timestamp = found := Except.ok.inj (htimestamp.symm.trans hfound)
    rw [hresource, hkind, hdata]
    rfl

end WellFormed

end Findings
