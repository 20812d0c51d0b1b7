import AiSoc.Correlation.Detections

namespace Correlation

open Permissions (Uuid Timestamp)
open PyStr Database Query Transition

section LastMatch

variable {α : Type*} {p : α → Bool} {xs : List α}

theorem exists_last_match (h : xs.filter p ≠ []) :
    ∃ i x, xs[i]? = some x ∧ p x = true ∧ xs.filter p = (xs.take (i + 1)).filter p := by
  induction xs using List.reverseRecOn with
  | nil => exact absurd rfl h
  | append_singleton xs x ih =>
      by_cases hx : p x = true
      · refine ⟨xs.length, x, List.getElem?_concat_length, hx, ?_⟩
        rw [List.take_of_length_le (by simp)]
      · have hsame : (xs ++ [x]).filter p = xs.filter p := by
          rw [List.filter_append, List.filter_cons_of_neg hx, List.filter_nil, List.append_nil]
        rw [hsame] at h ⊢
        obtain ⟨i, y, hi, hy, hfilter⟩ := ih h
        have hlt : i < xs.length := (List.getElem?_eq_some_iff.mp hi).1
        refine ⟨i, y, ?_, hy, ?_⟩
        · rw [List.getElem?_append_left hlt, hi]
        · rw [List.take_append_of_le_length (Nat.succ_le_of_lt hlt)]
          exact hfilter

end LastMatch

section Windows

variable {env : Env} {db : Database} {sourceIp : String} {since til : Timestamp}

def InOrder (db : Database) : Prop :=
  db.events.Pairwise fun a b => a.timestamp ≤ b.timestamp

theorem mem_failuresFrom {events : List Event} {event : Event} :
    event ∈ failuresFrom events sourceIp since til ↔ event ∈ events ∧
      event.eventType = "login_failure" ∧ since ≤ event.timestamp ∧ event.timestamp ≤ til ∧
      event.sourceIp = some sourceIp := by
  simp [failuresFrom, isLoginFailure, and_assoc]

theorem failuresFrom_sublist {events later : List Event} {start stop : Timestamp}
    (hevents : events.Sublist later) (hsince : start ≤ since) (htil : til ≤ stop) :
    (failuresFrom events sourceIp since til).Sublist (failuresFrom later sourceIp start stop) := by
  have hwider : (failuresFrom events sourceIp since til).Sublist
      (failuresFrom events sourceIp start stop) := by
    refine List.monotone_filter_right _ ?_
    intro event hevent
    simp only [isLoginFailure, Bool.and_eq_true, decide_eq_true_eq] at hevent ⊢
    obtain ⟨⟨htype, hfrom, hto⟩, hip⟩ := hevent
    exact ⟨⟨htype, hsince.trans hfrom, hto.trans htil⟩, hip⟩
  exact hwider.trans (hevents.filter _)

theorem usersFailing_length_le {events later : List Event} {start stop : Timestamp}
    (h : (failuresFrom events sourceIp since til).Sublist
      (failuresFrom later sourceIp start stop)) :
    (usersFailing events sourceIp since til).length ≤
      (usersFailing later sourceIp start stop).length := by
  have husers := h.filterMap (·.username)
  refine (List.Nodup.subperm (List.nodup_dedup _) ?_).length_le
  intro user huser
  exact List.mem_dedup.mpr (husers.subset (List.mem_dedup.mp huser))

theorem last_failure (hordered : InOrder db) {width : Timestamp}
    (hne : failuresFrom db.events sourceIp since (since + width) ≠ []) :
    ∃ i event, db.events[i]? = some event ∧ event.eventType = "login_failure" ∧
      event.sourceIp = some sourceIp ∧ since ≤ event.timestamp ∧
      event.timestamp ≤ since + width ∧
      (failuresFrom db.events sourceIp since (since + width)).Sublist
        (failuresFrom (db.events.take (i + 1)) sourceIp (event.timestamp - width)
          event.timestamp) := by
  obtain ⟨i, event, hi, hevent, hstart⟩ := exists_last_match hne
  have hfacts : event ∈ failuresFrom db.events sourceIp since (since + width) :=
    List.mem_filter.mpr ⟨List.mem_of_getElem? hi, hevent⟩
  obtain ⟨_, htype, hfrom, hto, hip⟩ := mem_failuresFrom.mp hfacts
  refine ⟨i, event, hi, htype, hip, hfrom, hto, ?_⟩
  have hlt : i < db.events.length := (List.getElem?_eq_some_iff.mp hi).1
  have hbefore : ∀ other ∈ db.events.take (i + 1), other.timestamp ≤ event.timestamp := by
    intro other hother
    obtain ⟨j, hj, rfl⟩ := List.mem_take_iff_getElem.mp hother
    have hget : db.events[i] = event := (List.getElem?_eq_some_iff.mp hi).2
    rcases Nat.lt_or_ge j i with hji | hij
    · exact hget ▸ List.pairwise_iff_getElem.mp hordered j i _ hlt hji
    · have heq : j = i := by omega
      subst heq
      exact hget ▸ le_refl _
  have hall : failuresFrom (db.events.take (i + 1)) sourceIp since (since + width) =
      failuresFrom (failuresFrom (db.events.take (i + 1)) sourceIp since (since + width)) sourceIp
        (event.timestamp - width) event.timestamp := by
    refine (List.filter_eq_self.mpr fun other hother => ?_).symm
    obtain ⟨hmem, hothertype, hotherfrom, _, hotherip⟩ := mem_failuresFrom.mp hother
    have hlow : event.timestamp - width ≤ other.timestamp :=
      (sub_le_iff_le_add.mpr hto).trans hotherfrom
    simp [isLoginFailure, hothertype, hlow, hbefore other hmem, hotherip]
  have hkept : failuresFrom db.events sourceIp since (since + width) =
      failuresFrom (db.events.take (i + 1)) sourceIp since (since + width) := hstart
  rw [hkept, hall]
  exact List.filter_sublist.filter _

end Windows

section Raised

variable {env : Env} {db : Database} {event : Event} {i : Nat} {ruleId : String}

theorem mem_expectedRules {events : List Event} : ruleId ∈ expectedRules env events event ↔
    ∃ holds, (ruleId, holds) ∈ signatures ∧ holds env events event := by
  simp only [expectedRules, List.mem_map, List.mem_filter, decide_eq_true_eq]
  constructor
  · rintro ⟨⟨_, holds⟩, ⟨hmem, hholds⟩, rfl⟩
    exact ⟨holds, hmem, hholds⟩
  · rintro ⟨holds, hmem, hholds⟩
    exact ⟨(ruleId, holds), ⟨hmem, hholds⟩, rfl⟩

theorem alert_of_expected (hexact : Exact env db) (hi : db.events[i]? = some event)
    (h : ruleId ∈ expectedRules env (db.events.take (i + 1)) event) :
    ∃ alert ∈ alertsOf db event, alert.ruleId = ruleId ∧ alert.username = event.username ∧
      alert.sourceIp = event.sourceIp ∧ alert.lastSeen = event.timestamp := by
  have hsignal : (ruleId, event.username, event.sourceIp, event.timestamp) ∈
      (alertsOf db event).map signal := by
    rw [hexact i event hi]
    exact List.mem_map_of_mem h
  obtain ⟨alert, halert, heq⟩ := List.mem_map.mp hsignal
  simp only [signal, Prod.mk.injEq] at heq
  exact ⟨alert, halert, heq⟩

theorem expected_of_alert (hc : Consistent db []) (hexact : Exact env db) {alert : Alert}
    (halert : alert ∈ db.alerts) : ∃ (i : Nat) (event : Event), db.events[i]? = some event ∧
      alert.sourceIp = event.sourceIp ∧ alert.lastSeen = event.timestamp ∧
      alert.ruleId ∈ expectedRules env (db.events.take (i + 1)) event := by
  obtain ⟨event, hevent, hraised⟩ := hc.raised alert halert
  obtain ⟨i, hi⟩ := List.mem_iff_getElem?.mp hevent
  have hmem : signal alert ∈ (alertsOf db event).map signal :=
    List.mem_map_of_mem (List.mem_filter.mpr ⟨halert, decide_eq_true hraised.eventId⟩)
  rw [hexact i event hi] at hmem
  obtain ⟨ruleId, hruleId, heq⟩ := List.mem_map.mp hmem
  simp only [signal, Prod.mk.injEq] at heq
  obtain ⟨hrule, _, hip, hlast⟩ := heq
  exact ⟨i, event, hi, hip.symm, hlast.symm, hrule ▸ hruleId⟩

theorem failsOften_of_expected {events : List Event}
    (h : bruteForceId ∈ expectedRules env events event) : FailsOften env events event := by
  obtain ⟨holds, hmem, hholds⟩ := mem_expectedRules.mp h
  simp [signatures, bruteForceId, passwordSprayId, suspiciousPrivilegeChangeId, largeDownloadId,
    loginAfterFailuresId, mlAnomalyId, cloudFindingId] at hmem
  exact hmem ▸ hholds

theorem failsForMany_of_expected {events : List Event}
    (h : passwordSprayId ∈ expectedRules env events event) : FailsForMany env events event := by
  obtain ⟨holds, hmem, hholds⟩ := mem_expectedRules.mp h
  simp [signatures, bruteForceId, passwordSprayId, suspiciousPrivilegeChangeId, largeDownloadId,
    loginAfterFailuresId, mlAnomalyId, cloudFindingId] at hmem
  exact hmem ▸ hholds

end Raised

def Alerted (db : Database) (ruleId sourceIp : String) (since til : Timestamp) : Prop :=
  ∃ alert ∈ db.alerts, alert.ruleId = ruleId ∧ alert.sourceIp = some sourceIp ∧
    since ≤ alert.lastSeen ∧ alert.lastSeen ≤ til

section Windowed

variable {env : Env} {db : Database} {sourceIp : String} {alert : Alert}

theorem prefix_window (i : Nat) (til width : Timestamp) :
    (failuresFrom (db.events.take (i + 1)) sourceIp (til - width) til).Sublist
      (failuresFrom db.events sourceIp (til - width) til) :=
  failuresFrom_sublist (List.take_sublist (i + 1) db.events) (le_refl _) (le_refl _)

theorem bruteForce_sound (hc : Consistent db []) (hexact : Exact env db) (halert : alert ∈ db.alerts)
    (hrule : alert.ruleId = bruteForceId) (hip : alert.sourceIp = some sourceIp) :
    env.settings.bruteForceThreshold ≤ (failuresFrom db.events sourceIp
      (alert.lastSeen - seconds env.settings.bruteForceWindowSeconds) alert.lastSeen).length := by
  obtain ⟨i, event, hi, heventIp, hlast, hexpected⟩ := expected_of_alert hc hexact halert
  rw [hrule] at hexpected
  obtain ⟨other, _, hother, _, hmany⟩ := failsOften_of_expected hexpected
  have hsame : other = sourceIp := Option.some.inj (hother.symm.trans (heventIp.symm.trans hip))
  subst hsame
  rw [hlast]
  exact hmany.trans (Int.ofNat_le.mpr (prefix_window i _ _).length_le)

theorem passwordSpray_sound (hc : Consistent db []) (hexact : Exact env db)
    (halert : alert ∈ db.alerts) (hrule : alert.ruleId = passwordSprayId)
    (hip : alert.sourceIp = some sourceIp) :
    env.settings.passwordSprayUniqueUsers ≤ (usersFailing db.events sourceIp
      (alert.lastSeen - seconds env.settings.passwordSprayWindowSeconds) alert.lastSeen).length := by
  obtain ⟨i, event, hi, heventIp, hlast, hexpected⟩ := expected_of_alert hc hexact halert
  rw [hrule] at hexpected
  obtain ⟨other, _, hother, _, hmany⟩ := failsForMany_of_expected hexpected
  have hsame : other = sourceIp := Option.some.inj (hother.symm.trans (heventIp.symm.trans hip))
  subst hsame
  rw [hlast]
  exact hmany.trans (Int.ofNat_le.mpr (usersFailing_length_le (prefix_window i _ _)))

theorem bruteForce_complete (hexact : Exact env db) (hordered : InOrder db)
    (hempty : sourceIp ≠ "") (hthreshold : 0 < env.settings.bruteForceThreshold)
    {since : Timestamp} (hmany : env.settings.bruteForceThreshold ≤ (failuresFrom db.events sourceIp
      since (since + seconds env.settings.bruteForceWindowSeconds)).length) :
    ∃ (i : Nat) (event : Event), db.events[i]? = some event ∧ event.sourceIp = some sourceIp ∧
      since ≤ event.timestamp ∧
      event.timestamp ≤ since + seconds env.settings.bruteForceWindowSeconds ∧
      ∃ alert ∈ alertsOf db event, alert.ruleId = bruteForceId ∧
        alert.sourceIp = some sourceIp ∧ alert.lastSeen = event.timestamp := by
  have hne : failuresFrom db.events sourceIp since
      (since + seconds env.settings.bruteForceWindowSeconds) ≠ [] := by
    intro hnil
    rw [hnil] at hmany
    exact absurd hmany (not_le.mpr hthreshold)
  obtain ⟨i, event, hi, htype, hip, hfrom, hto, hsub⟩ := last_failure hordered hne
  have hfails : FailsOften env (db.events.take (i + 1)) event :=
    ⟨sourceIp, htype, hip, hempty, hmany.trans (Int.ofNat_le.mpr hsub.length_le)⟩
  have hexpected : bruteForceId ∈ expectedRules env (db.events.take (i + 1)) event :=
    mem_expectedRules.mpr ⟨FailsOften, by simp [signatures], hfails⟩
  obtain ⟨alert, halert, hrule, _, halertIp, hlast⟩ := alert_of_expected hexact hi hexpected
  exact ⟨i, event, hi, hip, hfrom, hto, alert, halert, hrule, halertIp.trans hip, hlast⟩

theorem passwordSpray_complete (hexact : Exact env db) (hordered : InOrder db)
    (hempty : sourceIp ≠ "") (hthreshold : 0 < env.settings.passwordSprayUniqueUsers)
    {since : Timestamp} (hmany : env.settings.passwordSprayUniqueUsers ≤ (usersFailing db.events
      sourceIp since (since + seconds env.settings.passwordSprayWindowSeconds)).length) :
    Alerted db passwordSprayId sourceIp since
      (since + seconds env.settings.passwordSprayWindowSeconds) := by
  have hne : failuresFrom db.events sourceIp since
      (since + seconds env.settings.passwordSprayWindowSeconds) ≠ [] := by
    intro hnil
    rw [usersFailing, hnil] at hmany
    exact absurd hmany (not_le.mpr hthreshold)
  obtain ⟨i, event, hi, htype, hip, hfrom, hto, hsub⟩ := last_failure hordered hne
  have hfails : FailsForMany env (db.events.take (i + 1)) event :=
    ⟨sourceIp, htype, hip, hempty,
      hmany.trans (Int.ofNat_le.mpr (usersFailing_length_le hsub))⟩
  have hexpected : passwordSprayId ∈ expectedRules env (db.events.take (i + 1)) event :=
    mem_expectedRules.mpr ⟨FailsForMany, by simp [signatures], hfails⟩
  obtain ⟨alert, halert, hrule, _, halertIp, hlast⟩ := alert_of_expected hexact hi hexpected
  exact ⟨alert, List.mem_of_mem_filter halert, hrule, halertIp.trans hip, hlast ▸ hfrom,
    hlast ▸ hto⟩

end Windowed

theorem attacks_alerted (env : Env) (db : Database)
    (h : Run (handle env) anyStep Database.empty db) (hordered : InOrder db)
    (hfailures : 0 < env.settings.bruteForceThreshold)
    (husers : 0 < env.settings.passwordSprayUniqueUsers) (sourceIp : String)
    (hempty : sourceIp ≠ "") :
    (∀ since, env.settings.bruteForceThreshold ≤ (failuresFrom db.events sourceIp since
          (since + seconds env.settings.bruteForceWindowSeconds)).length →
        Alerted db bruteForceId sourceIp since
          (since + seconds env.settings.bruteForceWindowSeconds)) ∧
      (∀ since, env.settings.passwordSprayUniqueUsers ≤ (usersFailing db.events sourceIp since
          (since + seconds env.settings.passwordSprayWindowSeconds)).length →
        Alerted db passwordSprayId sourceIp since
          (since + seconds env.settings.passwordSprayWindowSeconds)) ∧
      ∀ alert ∈ db.alerts, alert.sourceIp = some sourceIp →
        (alert.ruleId = bruteForceId → env.settings.bruteForceThreshold ≤
          (failuresFrom db.events sourceIp
            (alert.lastSeen - seconds env.settings.bruteForceWindowSeconds)
            alert.lastSeen).length) ∧
        (alert.ruleId = passwordSprayId → env.settings.passwordSprayUniqueUsers ≤
          (usersFailing db.events sourceIp
            (alert.lastSeen - seconds env.settings.passwordSprayWindowSeconds)
            alert.lastSeen).length) := by
  obtain ⟨hc, hexact⟩ := exact_run h
  refine ⟨fun since hmany => ?_, fun since hmany => ?_, fun alert halert hip => ⟨?_, ?_⟩⟩
  · obtain ⟨i, event, _, _, hfrom, hto, alert, halert, hrule, hip, hlast⟩ :=
      bruteForce_complete hexact hordered hempty hfailures hmany
    exact ⟨alert, List.mem_of_mem_filter halert, hrule, hip, hlast ▸ hfrom, hlast ▸ hto⟩
  · exact passwordSpray_complete hexact hordered hempty husers hmany
  · exact fun hrule => bruteForce_sound hc hexact halert hrule hip
  · exact fun hrule => passwordSpray_sound hc hexact halert hrule hip

instance (db : Database) : Decidable (InOrder db) :=
  inferInstanceAs (Decidable (db.events.Pairwise _))

theorem attack_is_alerted : ∃ db, db.events.length = 11 ∧
    Alerted db bruteForceId "198.51.100.60" 0 (0 + seconds 60) := by
  have hany : (execAll (handle plainEnv) Database.empty
      [.createEventsBulk (attack tenIds "success" 0 100 (some "victim") (some "198.51.100.60"))]).any
        (fun db => decide (db.events.length = 11 ∧ InOrder db ∧
          10 ≤ (failuresFrom db.events "198.51.100.60" 0 (0 + seconds 60)).length)) = true := by
    decide
  obtain ⟨db, hrun, hdb⟩ := run_of_execAll_any hany
  obtain ⟨hlength, hordered, hmany⟩ := of_decide_eq_true hdb
  have halerted := attacks_alerted plainEnv db hrun hordered (by decide) (by decide)
    "198.51.100.60" (by decide)
  exact ⟨db, hlength, halerted.1 0 (Int.ofNat_le.mpr hmany)⟩

end Correlation
