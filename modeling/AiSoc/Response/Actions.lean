import AiSoc.Library.Json

namespace Response

open PyJson

inductive ActionTier where
  | tier0Auto
  | tier1Low
  | tier2Medium
  | tier3High
  deriving DecidableEq, Repr

def ActionTier.value : ActionTier → Nat
  | .tier0Auto => 0
  | .tier1Low => 1
  | .tier2Medium => 2
  | .tier3High => 3

inductive ActionType where
  | notify
  | enrichThreatIntel
  | snapshotEvidence
  | blockIp
  | revokeSessions
  | disableUser
  | removeRole
  | isolateHost
  deriving DecidableEq, Repr

def ActionType.value : ActionType → String
  | .notify => "notify"
  | .enrichThreatIntel => "enrich_threat_intel"
  | .snapshotEvidence => "snapshot_evidence"
  | .blockIp => "block_ip"
  | .revokeSessions => "revoke_sessions"
  | .disableUser => "disable_user"
  | .removeRole => "remove_role"
  | .isolateHost => "isolate_host"

def actionTiers : ActionType → ActionTier
  | .notify => .tier0Auto
  | .enrichThreatIntel => .tier0Auto
  | .snapshotEvidence => .tier0Auto
  | .blockIp => .tier1Low
  | .revokeSessions => .tier1Low
  | .disableUser => .tier2Medium
  | .removeRole => .tier2Medium
  | .isolateHost => .tier3High

-- str | int | float | bool
inductive ParameterValue where
  | str (s : String)
  | int (n : Int)
  | float (x : PyFloat)
  | infinity (neg : Bool)
  | nan
  | bool (b : Bool)
  deriving DecidableEq, Repr

def ParameterValue.toJson : ParameterValue → Json
  | .str s => .str s
  | .int n => .int n
  | .float x => .float x
  | .infinity neg => .infinity neg
  | .nan => .nan
  | .bool b => .bool b

structure ProposedAction where
  actionType : ActionType
  target : String
  reason : String
  evidenceRefs : List String
  confidence : PyFloat
  ttlSeconds : Option Int
  parameters : List (String × ParameterValue)
  targetLength : 1 ≤ target.length ∧ target.length ≤ 256
  reasonLength : 5 ≤ reason.length ∧ reason.length ≤ 500
  evidenceRefsLength : 1 ≤ evidenceRefs.length ∧ evidenceRefs.length ≤ 20
  confidenceRange : 0 ≤ confidence.toRat ∧ confidence.toRat ≤ 1
  ttlRange : ∀ ttl ∈ ttlSeconds, 60 ≤ ttl ∧ ttl ≤ 2592000
  deriving DecidableEq

def ProposedAction.tier (action : ProposedAction) : ActionTier :=
  actionTiers action.actionType

def ProposedAction.modelDump (action : ProposedAction) : Obj :=
  [("action_type", .str action.actionType.value),
    ("target", .str action.target),
    ("reason", .str action.reason),
    ("evidence_refs", .arr (action.evidenceRefs.map .str)),
    ("confidence", .float action.confidence),
    ("ttl_seconds", action.ttlSeconds.elim .null .int),
    ("parameters", .obj (action.parameters.map fun p => (p.1, p.2.toJson)))]

-- ProposedAction.model_validate, which pydantic derives from the class
abbrev ModelValidate := Obj → Except String ProposedAction

def RoundTrip (modelValidate : ModelValidate) : Prop :=
  ∀ action, modelValidate action.modelDump = .ok action

section Strict

-- model_validate on input that already has the declared types, without coercions

def ActionType.all : List ActionType :=
  [.notify, .enrichThreatIntel, .snapshotEvidence, .blockIp, .revokeSessions, .disableUser,
    .removeRole, .isolateHost]

def ActionType.ofValue (s : String) : Option ActionType :=
  ActionType.all.find? fun t => t.value = s

def ParameterValue.ofJson : Json → Option ParameterValue
  | .str s => some (.str s)
  | .int n => some (.int n)
  | .float x => some (.float x)
  | .infinity neg => some (.infinity neg)
  | .nan => some .nan
  | .bool b => some (.bool b)
  | _ => none

def readStr : Json → Option String
  | .str s => some s
  | _ => none

def readFloat : Json → Option PyFloat
  | .float x => some x
  | _ => none

def readStrs : Json → Option (List String)
  | .arr items => items.mapM readStr
  | _ => none

def readTtl : Option Json → Option (Option Int)
  | none => some none
  | some .null => some none
  | some (.int n) => some (some n)
  | some _ => none

def readParameters : Option Json → Option (List (String × ParameterValue))
  | none => some []
  | some (.obj fields) => fields.mapM fun p => (ParameterValue.ofJson p.2).map fun v => (p.1, v)
  | some _ => none

def actionFields : List String :=
  ["action_type", "target", "reason", "evidence_refs", "confidence", "ttl_seconds", "parameters"]

def ProposedAction.build (actionType : ActionType) (target reason : String)
    (evidenceRefs : List String) (confidence : PyFloat) (ttlSeconds : Option Int)
    (parameters : List (String × ParameterValue)) : Option ProposedAction :=
  if h : (1 ≤ target.length ∧ target.length ≤ 256) ∧ (5 ≤ reason.length ∧ reason.length ≤ 500) ∧
      (1 ≤ evidenceRefs.length ∧ evidenceRefs.length ≤ 20) ∧
      (0 ≤ confidence.toRat ∧ confidence.toRat ≤ 1) ∧
      ∀ ttl ∈ ttlSeconds, 60 ≤ ttl ∧ ttl ≤ 2592000 then
    some ⟨actionType, target, reason, evidenceRefs, confidence, ttlSeconds, parameters, h.1, h.2.1,
      h.2.2.1, h.2.2.2.1, h.2.2.2.2⟩
  else none

def readAction (fields : Obj) : Option ProposedAction := do
  if fields.any fun p => !actionFields.contains p.1 then none
  let actionType ← ((fields.get "action_type").bind readStr).bind ActionType.ofValue
  let target ← (fields.get "target").bind readStr
  let reason ← (fields.get "reason").bind readStr
  let evidenceRefs ← (fields.get "evidence_refs").bind readStrs
  let confidence ← (fields.get "confidence").bind readFloat
  let ttlSeconds ← readTtl (fields.get "ttl_seconds")
  let parameters ← readParameters (fields.get "parameters")
  ProposedAction.build actionType target reason evidenceRefs confidence ttlSeconds parameters

def strictValidate : ModelValidate := fun fields =>
  match readAction fields with
  | some action => .ok action
  | none => .error "validation error for ProposedAction"

theorem ofValue_value (t : ActionType) : ActionType.ofValue t.value = some t := by
  cases t <;> decide

theorem ofJson_toJson (v : ParameterValue) : ParameterValue.ofJson v.toJson = some v := by
  cases v <;> rfl

theorem readStrs_map (items : List String) : readStrs (.arr (items.map .str)) = some items := by
  simp only [readStrs]
  induction items with
  | nil => rfl
  | cons s items ih => simp [List.mapM_cons, readStr, ih]

theorem readParameters_map (parameters : List (String × ParameterValue)) :
    readParameters (some (.obj (parameters.map fun p => (p.1, p.2.toJson)))) =
      some parameters := by
  simp only [readParameters]
  induction parameters with
  | nil => rfl
  | cons p parameters ih => simp [List.mapM_cons, ofJson_toJson, ih]

theorem readTtl_elim (ttl : Option Int) : readTtl (some (ttl.elim .null .int)) = some ttl := by
  cases ttl <;> rfl

theorem build_self (a : ProposedAction) :
    ProposedAction.build a.actionType a.target a.reason a.evidenceRefs a.confidence a.ttlSeconds
      a.parameters = some a := by
  simp only [ProposedAction.build]
  rw [dif_pos ⟨a.targetLength, a.reasonLength, a.evidenceRefsLength, a.confidenceRange,
    a.ttlRange⟩]

theorem strictValidate_roundTrip : RoundTrip strictValidate := by
  intro action
  have hread : readAction action.modelDump = some action := by
    have hkeys : (action.modelDump.any fun p => !actionFields.contains p.1) = false := rfl
    simp only [readAction, hkeys]
    have htype : ((action.modelDump.get "action_type").bind readStr).bind ActionType.ofValue =
        some action.actionType := ofValue_value action.actionType
    have htarget : (action.modelDump.get "target").bind readStr = some action.target := rfl
    have hreason : (action.modelDump.get "reason").bind readStr = some action.reason := rfl
    have hrefs : (action.modelDump.get "evidence_refs").bind readStrs =
        some action.evidenceRefs := readStrs_map action.evidenceRefs
    have hconfidence : (action.modelDump.get "confidence").bind readFloat =
        some action.confidence := rfl
    have httl : readTtl (action.modelDump.get "ttl_seconds") = some action.ttlSeconds :=
      readTtl_elim action.ttlSeconds
    have hparameters : readParameters (action.modelDump.get "parameters") =
        some action.parameters := readParameters_map action.parameters
    simp [htype, htarget, hreason, hrefs, hconfidence, httl, hparameters, build_self]
  simp only [strictValidate, hread]

end Strict

end Response
