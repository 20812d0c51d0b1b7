import AiSoc.Correlation.Detection

namespace Correlation

open Permissions (Uuid Timestamp)
open Database

section Rules

structure Detects (event : Event) (ruleId : String) (confidence : PyFloat)
    (firstSeen lastSeen : Timestamp) (result : DetectionResult) : Prop where
  ruleId : result.ruleId = ruleId
  username : result.username = event.username
  sourceIp : result.sourceIp = event.sourceIp
  confidence : result.confidence = confidence
  firstSeen : result.firstSeen = firstSeen
  lastSeen : result.lastSeen = lastSeen

variable {env : Env} {db : Database} {event : Event} {result : DetectionResult}

theorem detects_bruteForce (h : bruteForce env db event = some (some result)) :
    ∃ sourceIp first last, event.sourceIp = some sourceIp ∧ sourceIp ≠ "" ∧
      last ∈ db.recentLoginFailuresBySourceIp env sourceIp
        (event.timestamp - seconds env.settings.bruteForceWindowSeconds) event.timestamp ∧
      Detects event bruteForceId (decimal 9 (-1) (by decide)) first last.timestamp result := by
  unfold bruteForce at h
  split at h
  · cases h
  · rename_i sourceIp hip
    split at h
    · cases h
    · rename_i hguard
      simp only at h
      split at h
      · cases h
      · obtain ⟨first, _, h⟩ := Option.bind_eq_some_iff.mp h
        obtain ⟨last, hlast, h⟩ := Option.bind_eq_some_iff.mp h
        cases h
        exact ⟨sourceIp, first.timestamp, last, hip, fun hempty => hguard (.inr hempty),
          List.mem_of_getLast? hlast, rfl, rfl, rfl, rfl, rfl, rfl⟩

theorem detects_passwordSpray (h : passwordSpray env db event = some (some result)) :
    ∃ sourceIp first, event.sourceIp = some sourceIp ∧ sourceIp ≠ "" ∧
      Detects event passwordSprayId (decimal 88 (-2) (by decide)) first event.timestamp
        result := by
  unfold passwordSpray at h
  split at h
  · cases h
  · rename_i sourceIp hip
    split at h
    · cases h
    · rename_i hguard
      simp only at h
      split at h
      · cases h
      · cases h
        exact ⟨sourceIp, _, hip, fun hempty => hguard (.inr hempty), rfl, rfl, rfl, rfl, rfl, rfl⟩

theorem detects_suspiciousPrivilegeChange
    (h : suspiciousPrivilegeChange env db event = some (some result)) :
    ∃ first, Detects event suspiciousPrivilegeChangeId (decimal 82 (-2) (by decide)) first
      event.timestamp result := by
  unfold suspiciousPrivilegeChange at h
  split at h
  · cases h
  · simp only at h
    split at h
    · cases h
    · cases h
      exact ⟨_, rfl, rfl, rfl, rfl, rfl, rfl⟩

theorem detects_largeDownload (h : largeDownload env db event = some (some result)) :
    Detects event largeDownloadId (decimal 8 (-1) (by decide)) event.timestamp event.timestamp
      result := by
  unfold largeDownload at h
  split at h
  · cases h
  · split at h
    · cases h
    · split at h
      · cases h
      · cases h
        exact ⟨rfl, rfl, rfl, rfl, rfl, rfl⟩

theorem detects_loginAfterFailures (h : loginAfterFailures env db event = some (some result)) :
    ∃ first, Detects event loginAfterFailuresId (decimal 86 (-2) (by decide)) first
      event.timestamp result := by
  unfold loginAfterFailures at h
  split at h
  · cases h
  · simp only at h
    split at h
    · cases h
    · obtain ⟨first, _, h⟩ := Option.bind_eq_some_iff.mp h
      cases h
      exact ⟨first.timestamp, rfl, rfl, rfl, rfl, rfl, rfl⟩

theorem detects_mlAnomaly (h : mlAnomaly env db event = some (some result)) :
    ∃ confidence, Detects event mlAnomalyId confidence event.timestamp event.timestamp
      result := by
  obtain ⟨answer, _, h⟩ := Option.bind_eq_some_iff.mp h
  cases answer with
  | none => cases h
  | some anomaly =>
      simp only at h
      split at h
      · cases h
      · cases h
        exact ⟨_, rfl, rfl, rfl, rfl, rfl, rfl⟩

theorem detects_cloudFinding (h : cloudFinding env db event = some (some result)) :
    ∃ confidence ∈ [decimal 9 (-1) (by decide), decimal 75 (-2) (by decide)],
      Detects event cloudFindingId confidence event.timestamp event.timestamp result := by
  unfold cloudFinding at h
  split at h
  · cases h
  · cases h
    refine ⟨_, ?_, rfl, rfl, rfl, rfl, rfl, rfl⟩
    split
    · exact List.mem_cons_self
    · exact List.mem_cons_of_mem _ List.mem_cons_self

end Rules

end Correlation
