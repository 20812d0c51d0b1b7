import AiSoc.Correlation.Store

namespace Correlation

open Permissions (Uuid Timestamp)
open Investigation (optStr)
open PyJson PyStr Database

structure DetectionResult where
  ruleId : String
  title : String
  description : String
  severity : String
  confidence : PyFloat
  sourceIp : Option String
  username : Option String
  eventId : String
  evidence : Json
  firstSeen : Timestamp
  lastSeen : Timestamp

def bruteForceId : String := "rule_001_brute_force"
def passwordSprayId : String := "rule_002_password_spray"
def suspiciousPrivilegeChangeId : String := "rule_003_suspicious_privilege_change"
def largeDownloadId : String := "rule_004_large_download"
def loginAfterFailuresId : String := "rule_005_login_after_failures"
def cloudFindingId : String := "rule_006_cloud_finding"
def mlAnomalyId : String := "rule_006_ml_anomaly"

def decimal (digits : Nat) (exponent : Int) (h : digits % 10 ≠ 0) : PyFloat :=
  ⟨false, digits, exponent, .inl h⟩

theorem spray_digits : 88 % 10 ≠ 0 := by decide

def natStr (n : Nat) : String := String.ofList (natText n)

def intStr (n : Int) : String := String.ofList (intText n)

-- value or default
def orDefault (value : Option String) (default : String) : String :=
  match value with
  | some s => if s = "" then default else s
  | none => default

-- str(metadata.get(key) or default)
def metadataText (py : PyText) (metadata : Obj) (key default : String) : String :=
  match metadata.get key with
  | some value => if truthy value then py.str value else default
  | none => default

def eventIds (events : List Event) : Json :=
  .arr (events.map fun event => .str event.eventId)

-- none where the rule raises, some none where it does not match
abbrev Rule := Env → Database → Event → Option (Option DetectionResult)

def bruteForce : Rule := fun env db event =>
  match event.sourceIp with
  | none => some none
  | some sourceIp =>
      if event.eventType ≠ "login_failure" ∨ sourceIp = "" then some none
      else
        let windowSeconds := env.settings.bruteForceWindowSeconds
        let failures := db.recentLoginFailuresBySourceIp env sourceIp
          (event.timestamp - seconds windowSeconds) event.timestamp
        if failures.length < env.settings.bruteForceThreshold then some none
        else do
          let first ← failures.head?
          let last ← failures.getLast?
          some (some
            { ruleId := bruteForceId
              title := "Potential brute-force attack detected"
              description := "Detected " ++ natStr failures.length ++ " login failures from " ++
                sourceIp ++ " within " ++ intStr windowSeconds ++ " seconds."
              severity := "high"
              confidence := decimal 9 (-1) (by decide)
              sourceIp := event.sourceIp
              username := event.username
              eventId := event.eventId
              evidence := .obj [("failure_count", .int failures.length),
                ("window_seconds", .int windowSeconds), ("event_ids", eventIds failures)]
              firstSeen := first.timestamp
              lastSeen := last.timestamp })

def passwordSpray : Rule := fun env db event =>
  match event.sourceIp with
  | none => some none
  | some sourceIp =>
      if event.eventType ≠ "login_failure" ∨ sourceIp = "" then some none
      else
        let windowSeconds := env.settings.passwordSprayWindowSeconds
        let since := event.timestamp - seconds windowSeconds
        let usernames := db.distinctUsernamesForFailuresBySourceIp sourceIp since event.timestamp
        if usernames.length < env.settings.passwordSprayUniqueUsers then some none
        else
          let failures := db.recentLoginFailuresBySourceIp env sourceIp since event.timestamp
          some (some
            { ruleId := passwordSprayId
              title := "Potential password spray detected"
              description := "Detected login failures against " ++ natStr usernames.length ++
                " users from " ++ sourceIp ++ " within " ++ intStr windowSeconds ++ " seconds."
              severity := "high"
              confidence := decimal 88 (-2) spray_digits
              sourceIp := event.sourceIp
              username := event.username
              eventId := event.eventId
              evidence := .obj
                [("unique_users", .arr ((usernames.insertionSort (· ≤ ·)).map .str)),
                  ("unique_user_count", .int usernames.length),
                  ("window_seconds", .int windowSeconds)]
              firstSeen := (failures.head?.map (·.timestamp)).getD event.timestamp
              lastSeen := event.timestamp })

def suspiciousPrivilegeChange : Rule := fun env db event =>
  if event.eventType ≠ "privilege_change" then some none
  else
    let lookbackSeconds := env.settings.privilegeChangeLookbackSeconds
    let failures := db.recentLoginFailuresForIdentity env event.username event.sourceIp
      (event.timestamp - seconds lookbackSeconds) event.timestamp
    match failures.head? with
    | none => some none
    | some first =>
        some (some
          { ruleId := suspiciousPrivilegeChangeId
            title := "Suspicious privilege change detected"
            description := "Privilege change followed recent failed authentication activity for the same identity or source IP."
            severity := "high"
            confidence := decimal 82 (-2) (by decide)
            sourceIp := event.sourceIp
            username := event.username
            eventId := event.eventId
            evidence := .obj [("lookback_seconds", .int lookbackSeconds),
              ("failure_event_ids", eventIds failures), ("failure_count", .int failures.length)]
            firstSeen := first.timestamp
            lastSeen := event.timestamp })

def largeDownload : Rule := fun env _ event =>
  if event.eventType ≠ "file_download" ∧ event.eventType ≠ "resource_access" then some none
  else
    match event.bytesReceived with
    | none => some none
    | some bytesReceived =>
        if bytesReceived < env.settings.largeDownloadThresholdBytes then some none
        else
          some (some
            { ruleId := largeDownloadId
              title := "Large download detected"
              description := "Detected download volume of " ++ intStr bytesReceived ++
                " bytes above threshold."
              severity := "medium"
              confidence := decimal 8 (-1) (by decide)
              sourceIp := event.sourceIp
              username := event.username
              eventId := event.eventId
              evidence := .obj [("bytes_received", .int bytesReceived),
                ("threshold_bytes", .int env.settings.largeDownloadThresholdBytes),
                ("resource", optStr event.resource)]
              firstSeen := event.timestamp
              lastSeen := event.timestamp })

def loginAfterFailures : Rule := fun env db event =>
  if event.eventType ≠ "login_success" then some none
  else
    let windowSeconds := env.settings.loginAfterFailuresWindowSeconds
    let failures := db.recentLoginFailuresForIdentity env event.username event.sourceIp
      (event.timestamp - seconds windowSeconds) event.timestamp
    if failures.length < env.settings.loginAfterFailuresThreshold then some none
    else do
      let first ← failures.head?
      some (some
        { ruleId := loginAfterFailuresId
          title := "Login after multiple failures detected"
          description := "Successful login followed multiple recent failures for the same user or source IP."
          severity := "high"
          confidence := decimal 86 (-2) (by decide)
          sourceIp := event.sourceIp
          username := event.username
          eventId := event.eventId
          evidence := .obj [("failure_count", .int failures.length),
            ("threshold", .int env.settings.loginAfterFailuresThreshold),
            ("failure_event_ids", eventIds failures), ("window_seconds", .int windowSeconds)]
          firstSeen := first.timestamp
          lastSeen := event.timestamp })

def mlAnomaly : Rule := fun env db event => do
  let answer ← env.scoreEvent db.events event
  match answer with
  | none => some none
  | some anomaly =>
      if anomaly.threshold.toRat ≤ anomaly.score.toRat then some none
      else
        some (some
          { ruleId := mlAnomalyId
            title := "Anomalous telemetry detected"
            description := event.eventType ++ " anomaly score " ++ env.fixed4 anomaly.score ++
              " crossed the " ++ env.fixed4 anomaly.threshold ++ " threshold"
            severity := "medium"
            confidence := env.anomalyConfidence anomaly.score anomaly.threshold
            sourceIp := event.sourceIp
            username := event.username
            eventId := event.eventId
            evidence := .obj [("anomaly_score", .float anomaly.score),
              ("threshold", .float anomaly.threshold),
              ("feature_version", .str anomaly.featureVersion),
              ("model_version", .str anomaly.modelVersion), ("features", anomaly.features)]
            firstSeen := event.timestamp
            lastSeen := event.timestamp })

def findingEventTypes : List String :=
  ["cloud_finding", "s3_public_exposure", "secret_exposure", "access_key_used",
    "data_exfiltration"]

def cloudFinding : Rule := fun env _ event =>
  if event.eventType ∉ findingEventTypes then some none
  else
    let findingType :=
      slice 128 (metadataText env.text event.metadata "finding_type" event.eventType)
    some (some
      { ruleId := cloudFindingId
        title := "Security finding: " ++ findingType
        description := event.source ++ " reported " ++ findingType ++ " on " ++
          orDefault event.resource "an asset" ++ "."
        severity := orDefault event.severity "medium"
        confidence := if event.sourceType = "aws_security_hub" then decimal 9 (-1) (by decide)
          else decimal 75 (-2) (by decide)
        sourceIp := event.sourceIp
        username := event.username
        eventId := event.eventId
        evidence := .obj [("finding_type", .str findingType), ("resource", optStr event.resource),
          ("account_id", (event.metadata.get "account_id").getD .null),
          ("provider_finding_id", (event.metadata.get "provider_finding_id").getD .null)]
        firstSeen := event.timestamp
        lastSeen := event.timestamp })

-- in the order of the registry
def ruleRegistry : List Rule :=
  [bruteForce, passwordSpray, suspiciousPrivilegeChange, largeDownload, loginAfterFailures,
    mlAnomaly, cloudFinding]

def evaluateEvent (env : Env) (db : Database) (event : Event) : Option (List DetectionResult) :=
  (ruleRegistry.mapM fun (rule : Rule) => rule env db event).map (·.reduceOption)

def buildAlert (event : Event) (result : DetectionResult) (id : Uuid) (createdAt : Timestamp) :
    Alert where
  id := id
  eventId := event.id
  ruleId := result.ruleId
  title := result.title
  description := result.description
  severity := result.severity
  confidence := result.confidence
  sourceIp := result.sourceIp
  username := result.username
  firstSeen := result.firstSeen
  lastSeen := result.lastSeen
  evidence := result.evidence
  createdAt := createdAt

def buildAlerts (env : Env) (event : Event) : Uuid → List DetectionResult → List Alert
  | _, [] => []
  | id, result :: results =>
      buildAlert event result id (env.clock id) :: buildAlerts env event (id + 1) results

def Database.createAlerts (db : Database) (alerts : List Alert) : Database :=
  { db with alerts := db.alerts ++ alerts, nextId := db.nextId + alerts.length }

end Correlation
