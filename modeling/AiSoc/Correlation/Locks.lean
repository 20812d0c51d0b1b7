import AiSoc.Correlation.Ingestion
import AiSoc.Correlation.Reachable
import AiSoc.Library.AdvisoryLock

namespace Correlation

open Permissions (Uuid Timestamp)
open PyJson PyStr Database Transition AdvisoryLock

inductive Call where
  | credential (username sourceIp : Option String)
  | cloudFinding (event : Event) (alert : Alert)

namespace Call

variable (env : Env)

def key : Call → String
  | .credential username sourceIp => buildCorrelationKey env.text username sourceIp
  | .cloudFinding event _ => eventFindingKey env event

def username : Call → Option String
  | .credential username _ => username
  | .cloudFinding _ _ => none

def sourceIp : Call → Option String
  | .credential _ sourceIp => sourceIp
  | .cloudFinding _ _ => none

def lockKeys : Call → List String
  | .credential username sourceIp => buildIdentityLockKeys env.text username sourceIp
  | .cloudFinding event _ => [eventFindingKey env event]

def Selects (call : Call) (row : Incident) : Prop :=
  row.status = "open" ∧ identifies (call.key env) call.username call.sourceIp row = true

def Creates (row : Incident) : Call → Prop
  | .credential username sourceIp => ∃ firstSeen lastSeen id,
      row = credentialIncident (buildCorrelationKey env.text username sourceIp) username sourceIp
        firstSeen lastSeen id
  | .cloudFinding event alert => ∃ riskScore id,
      row = findingIncident alert (eventFindingKey env event) riskScore id

def Takes (call : Call) (row : Incident) : Prop :=
  call.Selects env row ∨ call.Creates env row

def Refreshes (row row' : Incident) : Call → Prop
  | .credential username sourceIp => ∃ db linked firstSeen lastSeen,
      row' = refreshCredential env db (buildCorrelationKey env.text username sourceIp) username
        sourceIp linked firstSeen lastSeen row
  | .cloudFinding _ _ => ∃ db linked topScore lastSeen,
      row' = refreshFinding env db linked topScore lastSeen row

end Call

inductive Reached (env : Env) : Incident → Prop where
  | created {row : Incident} (call : Call) : call.Creates env row → Reached env row
  | refreshed {row row' : Incident} (call : Call) :
      Reached env row → call.Takes env row → call.Refreshes env row row' → Reached env row'
  | manual (payload : IncidentCreate) (id : Uuid) : Reached env (manualIncident env payload id)

def Holds (env : Env) {H : Type} (hash : String → H) (locks : Locks H) (t : Nat) (call : Call) :
    Prop :=
  ∀ key ∈ call.lockKeys env, locks (hash key) = some t

def Exclusive (env : Env) (call call' : Call) : Prop :=
  ∀ (H : Type) (hash : String → H) (locks : Locks H) (t t' : Nat), t ≠ t' →
    Holds env hash locks t call → ¬ Holds env hash locks t' call'

def LocksCover (env : Env) (call call' : Call) : Prop :=
  ∀ row, Reached env row → call.Takes env row → call'.Takes env row →
    (∃ key ∈ call.lockKeys env, key ∈ call'.lockKeys env) ∧ Exclusive env call call'

def KeysCover (env : Env) : Call → Call → Prop
  | .credential u s, .credential u' s' =>
      (normalized env.text u ≠ "" ∧ normalized env.text u = normalized env.text u') ∨
      (normalized env.text s ≠ "" ∧ normalized env.text s = normalized env.text s') ∨
      (s = none ∧ s' = none ∧ normalized env.text u ≠ "" ∧ normalized env.text u' ≠ "") ∨
      (u = none ∧ u' = none ∧ normalized env.text s ≠ "" ∧ normalized env.text s' ≠ "")
  | .credential u s, .cloudFinding _ _ => u = none ∧ s = none
  | .cloudFinding _ _, .credential u s => u = none ∧ s = none
  | .cloudFinding _ _, .cloudFinding _ _ => True

section Keys

variable {env : Env}

theorem credentialKey_ne_findingKey (username sourceIp : Option String) (event : Event) :
    buildCorrelationKey env.text username sourceIp ≠ eventFindingKey env event := by
  intro h
  have hcredential := @isCredentialKey_buildCorrelationKey env.text username sourceIp
  rw [h] at hcredential
  exact not_isFindingKey_of_isCredentialKey hcredential (isFindingKey_findingKey _ _)

theorem normalized_blank {value : Option String} (h : truthyText value = none) :
    normalized env.text value = "" := by
  have hblank : value.getD "" = "" := by
    cases value with
    | none => rfl
    | some s => simpa [truthyText] using h
  unfold normalized PyText.normalize
  rw [hblank]
  exact env.lower_empty

theorem normalized_or {value old : Option String} (h : normalized env.text value ≠ "") :
    normalized env.text ((truthyText value).or old) = normalized env.text value := by
  cases htext : truthyText value with
  | none => exact absurd (normalized_blank htext) h
  | some s =>
      have hvalue := Option.eq_some_of_filter_eq_some htext
      rw [hvalue]
      rfl

end Keys

section Rows

variable {env : Env} {call : Call} {row row' : Incident}

theorem Call.selects_of_creates (h : call.Creates env row) : call.Selects env row := by
  cases call with
  | credential username sourceIp =>
      obtain ⟨firstSeen, lastSeen, id, rfl⟩ := h
      exact ⟨rfl, by simp [identifies, credentialIncident, Call.key]⟩
  | cloudFinding event alert =>
      obtain ⟨riskScore, id, rfl⟩ := h
      exact ⟨rfl, by simp [identifies, findingIncident, Call.key]⟩

theorem Call.takes_iff : call.Takes env row ↔ call.Selects env row :=
  ⟨fun h => h.elim id Call.selects_of_creates, .inl⟩

structure Keyed (env : Env) (row : Incident) : Prop where
  username : ∀ u s, row.correlationKey = buildCorrelationKey env.text u s →
    normalized env.text u ≠ "" → normalized env.text row.primaryUsername = normalized env.text u
  sourceIp : ∀ u s, row.correlationKey = buildCorrelationKey env.text u s →
    normalized env.text s ≠ "" → normalized env.text row.primarySourceIp = normalized env.text s

theorem keyed_of_not_credential (h : ¬ isCredentialKey row.correlationKey) : Keyed env row := by
  constructor <;> intro u s hkey <;>
    exact absurd (hkey ▸ isCredentialKey_buildCorrelationKey u s) h

theorem keyed_credential {u s : Option String}
    (hkey : row.correlationKey = buildCorrelationKey env.text u s)
    (hu : normalized env.text u ≠ "" →
      normalized env.text row.primaryUsername = normalized env.text u)
    (hs : normalized env.text s ≠ "" →
      normalized env.text row.primarySourceIp = normalized env.text s) : Keyed env row := by
  constructor
  · intro u' s' hkey' hne
    obtain ⟨husame, _⟩ := buildCorrelationKey_inj.mp (hkey.symm.trans hkey')
    rw [← husame] at hne ⊢
    exact hu hne
  · intro u' s' hkey' hne
    obtain ⟨_, hssame⟩ := buildCorrelationKey_inj.mp (hkey.symm.trans hkey')
    rw [← hssame] at hne ⊢
    exact hs hne

theorem keyed_created (h : call.Creates env row) : Keyed env row := by
  cases call with
  | credential username sourceIp =>
      obtain ⟨firstSeen, lastSeen, id, rfl⟩ := h
      exact keyed_credential rfl (fun _ => rfl) fun _ => rfl
  | cloudFinding event alert =>
      obtain ⟨riskScore, id, rfl⟩ := h
      exact keyed_of_not_credential fun hcredential =>
        not_isFindingKey_of_isCredentialKey hcredential (isFindingKey_findingKey _ _)

theorem keyed_refreshed (hrow : Keyed env row) (h : call.Refreshes env row row') :
    Keyed env row' := by
  cases call with
  | credential username sourceIp =>
      obtain ⟨db, linked, firstSeen, lastSeen, rfl⟩ := h
      exact keyed_credential rfl normalized_or normalized_or
  | cloudFinding event alert =>
      obtain ⟨db, linked, topScore, lastSeen, rfl⟩ := h
      exact ⟨hrow.username, hrow.sourceIp⟩

theorem keyed_reached (h : Reached env row) : Keyed env row := by
  induction h with
  | created call hcreates => exact keyed_created hcreates
  | refreshed call _ _ hrefreshes ih => exact keyed_refreshed ih hrefreshes
  | manual payload id => exact keyed_of_not_credential (manualKey_not_credential payload id)

theorem selects_credential {u s : Option String} :
    (Call.credential u s).Selects env row ↔ row.status = "open" ∧
      (row.correlationKey = buildCorrelationKey env.text u s ∨
        (u.isSome ∧ row.primaryUsername = u) ∨ (s.isSome ∧ row.primarySourceIp = s)) := by
  simp only [Call.Selects, identifies, sameIdentity, Bool.or_eq_true, Bool.and_eq_true,
    decide_eq_true_eq]
  rfl

theorem selects_of_username {a : String} {s : Option String} (hopen : row.status = "open")
    (h : row.primaryUsername = some a) : (Call.credential (some a) s).Selects env row :=
  selects_credential.mpr ⟨hopen, .inr (.inl ⟨rfl, h⟩)⟩

theorem selects_of_sourceIp {u : Option String} {b : String} (hopen : row.status = "open")
    (h : row.primarySourceIp = some b) : (Call.credential u (some b)).Selects env row :=
  selects_credential.mpr ⟨hopen, .inr (.inr ⟨rfl, h⟩)⟩

theorem selects_cloudFinding {event : Event} {alert : Alert} :
    (Call.cloudFinding event alert).Selects env row ↔
      row.status = "open" ∧ row.correlationKey = eventFindingKey env event := by
  simp only [Call.Selects, identifies, sameIdentity, Bool.or_eq_true, Bool.and_eq_true,
    decide_eq_true_eq]
  simp only [Call.key, Call.username, Call.sourceIp, Option.isSome_none, Bool.false_eq_true,
    false_and, or_false]

end Rows

section Covered

variable {env : Env} {call call' : Call} {key : String}

theorem exclusive_of_key (h : key ∈ call.lockKeys env) (h' : key ∈ call'.lockKeys env) :
    Exclusive env call call' := by
  intro H hash locks t t' hne hheld hheld'
  have hsame := (hheld key h).symm.trans (hheld' key h')
  exact hne (Option.some.inj hsame)

theorem common_credential_keys {u s u' s' : Option String} :
    (∃ key ∈ (Call.credential u s).lockKeys env, key ∈ (Call.credential u' s').lockKeys env) ↔
      (normalized env.text u ≠ "" ∧ normalized env.text u = normalized env.text u') ∨
        (normalized env.text s ≠ "" ∧ normalized env.text s = normalized env.text s') := by
  simp only [Call.lockKeys, mem_buildIdentityLockKeys]
  constructor
  · rintro ⟨key, ⟨hu, rfl⟩ | ⟨hs, rfl⟩, ⟨_, h⟩ | ⟨_, h⟩⟩
    · exact .inl ⟨hu, usernameLockKey_inj.mp h⟩
    · exact absurd h (usernameLockKey_ne_sourceIpLockKey _ _)
    · exact absurd h.symm (usernameLockKey_ne_sourceIpLockKey _ _)
    · exact .inr ⟨hs, sourceIpLockKey_inj.mp h⟩
  · rintro (⟨hu, h⟩ | ⟨hs, h⟩)
    · exact ⟨_, .inl ⟨hu, rfl⟩, .inl ⟨h ▸ hu, h ▸ rfl⟩⟩
    · exact ⟨_, .inr ⟨hs, rfl⟩, .inr ⟨h ▸ hs, h ▸ rfl⟩⟩

theorem no_common_key {u s : Option String} {event : Event} {alert : Alert}
    (h : key ∈ (Call.credential u s).lockKeys env) :
    key ∉ (Call.cloudFinding event alert).lockKeys env := by
  intro h'
  have hfinding : isFindingKey key := by
    rw [List.mem_singleton.mp h']
    exact isFindingKey_findingKey _ _
  have hfirst := first_of_start (c := 'f') (by decide) hfinding
  have hcredential : "credential_compromise:".toList <+: key.toList := by
    rcases mem_buildIdentityLockKeys.mp h with ⟨_, rfl⟩ | ⟨_, rfl⟩
    · exact List.IsPrefix.trans (by decide) (prefix_append_text _ _)
    · exact List.IsPrefix.trans (by decide) (prefix_append_text _ _)
  rw [first_of_start (c := 'c') (by decide) hcredential] at hfirst
  exact absurd hfirst (by decide)

theorem covered_of_key (h : ∃ key ∈ call.lockKeys env, key ∈ call'.lockKeys env) :
    (∃ key ∈ call.lockKeys env, key ∈ call'.lockKeys env) ∧ Exclusive env call call' := by
  obtain ⟨key, hkey, hkey'⟩ := h
  exact ⟨⟨key, hkey, hkey'⟩, exclusive_of_key hkey hkey'⟩

theorem locksCover_symm (h : LocksCover env call call') : LocksCover env call' call := by
  intro row hrow htakes htakes'
  obtain ⟨⟨key, hkey, hkey'⟩, _⟩ := h row hrow htakes' htakes
  exact covered_of_key ⟨key, hkey', hkey⟩

theorem common_of_covered {row : Incident} (h : LocksCover env call call') (hrow : Reached env row)
    (hsel : call.Selects env row) (hsel' : call'.Selects env row) :
    ∃ key ∈ call.lockKeys env, key ∈ call'.lockKeys env :=
  (h row hrow (.inl hsel) (.inl hsel')).1

end Covered

section CommonRow

variable {env : Env} {u s u' s' : Option String}

theorem normalized_space : normalized env.text (some " ") = "" := by
  have hstrip : strip " " = "" := by decide
  have hnormalized : normalized env.text (some " ") = env.text.lower (strip " ") := rfl
  rw [hnormalized, hstrip]
  exact env.lower_empty

theorem named_row (env : Env) (u s : Option String) : ∃ row, Reached env row ∧ row.status = "open" ∧
    row.primaryUsername = u ∧ row.primarySourceIp = s :=
  ⟨_, .manual ⟨"", "", "", u, s, ""⟩ 0, rfl, rfl, rfl⟩

theorem blank_username_row (env : Env) (s : String) : ∃ row, Reached env row ∧ row.status = "open" ∧
    row.correlationKey = buildCorrelationKey env.text (some " ") none ∧
      row.primarySourceIp = some s := by
  have hcreated : Reached env (credentialIncident
      (buildCorrelationKey env.text (some " ") (some s)) (some " ") (some s) 0 0 0) :=
    .created (.credential (some " ") (some s)) ⟨0, 0, 0, rfl⟩
  have htakes : (Call.credential (some " ") none).Takes env (credentialIncident
      (buildCorrelationKey env.text (some " ") (some s)) (some " ") (some s) 0 0 0) :=
    .inl (selects_of_username rfl rfl)
  exact ⟨_, hcreated.refreshed _ htakes ⟨Database.empty, [], 0, 0, rfl⟩, rfl, rfl, rfl⟩

theorem blank_sourceIp_row (env : Env) (u : String) : ∃ row, Reached env row ∧ row.status = "open" ∧
    row.correlationKey = buildCorrelationKey env.text none (some " ") ∧
      row.primaryUsername = some u := by
  have hcreated : Reached env (credentialIncident
      (buildCorrelationKey env.text (some u) (some " ")) (some u) (some " ") 0 0 0) :=
    .created (.credential (some u) (some " ")) ⟨0, 0, 0, rfl⟩
  have htakes : (Call.credential none (some " ")).Takes env (credentialIncident
      (buildCorrelationKey env.text (some u) (some " ")) (some u) (some " ") 0 0 0) :=
    .inl (selects_of_sourceIp rfl rfl)
  exact ⟨_, hcreated.refreshed _ htakes ⟨Database.empty, [], 0, 0, rfl⟩, rfl, rfl, rfl⟩

theorem common_row_of_blank (hu : normalized env.text u = "") (hs : normalized env.text s = "")
    (u' s' : Option String) : ∃ row, Reached env row ∧ (Call.credential u s).Selects env row ∧
      (Call.credential u' s').Selects env row := by
  have hnone : normalized env.text none = "" := normalized_blank rfl
  cases s' with
  | some t =>
      obtain ⟨row, hrow, hopen, hkey, hip⟩ := blank_username_row env t
      have hsame := buildCorrelationKey_inj.mpr
        ⟨normalized_space.trans hu.symm, hnone.trans hs.symm⟩
      exact ⟨row, hrow, selects_credential.mpr ⟨hopen, .inl (hkey.trans hsame)⟩,
        selects_of_sourceIp hopen hip⟩
  | none =>
      cases u' with
      | some v =>
          obtain ⟨row, hrow, hopen, hkey, husername⟩ := blank_sourceIp_row env v
          have hsame := buildCorrelationKey_inj.mpr
            ⟨hnone.trans hu.symm, normalized_space.trans hs.symm⟩
          exact ⟨row, hrow, selects_credential.mpr ⟨hopen, .inl (hkey.trans hsame)⟩,
            selects_of_username hopen husername⟩
      | none =>
          have hsame := buildCorrelationKey_inj.mpr ⟨hnone.trans hu.symm, hnone.trans hs.symm⟩
          have hcreates : (Call.credential none none).Creates env (credentialIncident
              (buildCorrelationKey env.text none none) none none 0 0 0) := ⟨0, 0, 0, rfl⟩
          exact ⟨_, .created _ hcreates, selects_credential.mpr ⟨rfl, .inl hsame⟩,
            Call.selects_of_creates hcreates⟩

theorem common_row
    (hu : ¬ (s = none ∧ s' = none ∧ normalized env.text u ≠ "" ∧ normalized env.text u' ≠ ""))
    (hs : ¬ (u = none ∧ u' = none ∧ normalized env.text s ≠ "" ∧ normalized env.text s' ≠ "")) :
    ∃ row, Reached env row ∧ (Call.credential u s).Selects env row ∧
      (Call.credential u' s').Selects env row := by
  have hnone : normalized env.text none = "" := normalized_blank rfl
  have hswap : normalized env.text u' = "" → normalized env.text s' = "" →
      ∃ row, Reached env row ∧ (Call.credential u s).Selects env row ∧
        (Call.credential u' s').Selects env row := by
    intro hu' hs'
    obtain ⟨row, hrow, hsel', hsel⟩ := common_row_of_blank hu' hs' u s
    exact ⟨row, hrow, hsel, hsel'⟩
  cases u with
  | some a =>
      cases s' with
      | some b =>
          obtain ⟨row, hrow, hopen, husername, hip⟩ := named_row env (some a) (some b)
          exact ⟨row, hrow, selects_of_username hopen husername,
            selects_of_sourceIp hopen hip⟩
      | none =>
          cases u' with
          | none => exact hswap hnone hnone
          | some c =>
              cases s with
              | some d =>
                  obtain ⟨row, hrow, hopen, husername, hip⟩ :=
                    named_row env (some c) (some d)
                  exact ⟨row, hrow, selects_of_sourceIp hopen hip,
                    selects_of_username hopen husername⟩
              | none =>
                  by_cases ha : normalized env.text (some a) = ""
                  · exact common_row_of_blank ha hnone _ _
                  · by_cases hc : normalized env.text (some c) = ""
                    · exact hswap hc hnone
                    · exact absurd ⟨rfl, rfl, ha, hc⟩ hu
  | none =>
      cases s with
      | none => exact common_row_of_blank hnone hnone _ _
      | some d =>
          cases u' with
          | some c =>
              obtain ⟨row, hrow, hopen, husername, hip⟩ :=
                named_row env (some c) (some d)
              exact ⟨row, hrow, selects_of_sourceIp hopen hip,
                selects_of_username hopen husername⟩
          | none =>
              by_cases hd : normalized env.text (some d) = ""
              · exact common_row_of_blank hnone hd _ _
              · by_cases hs' : normalized env.text s' = ""
                · exact hswap hnone hs'
                · exact absurd ⟨rfl, rfl, hd, hs'⟩ hs

end CommonRow

section Iff

variable {env : Env}

theorem username_of_selects {row : Incident} {u : Option String} (hkeyed : Keyed env row)
    (h : (Call.credential u none).Selects env row) (hu : normalized env.text u ≠ "") :
    normalized env.text row.primaryUsername = normalized env.text u := by
  rcases (selects_credential.mp h).2 with hkey | ⟨_, rfl⟩ | ⟨hnone, _⟩
  · exact hkeyed.username u none hkey hu
  · rfl
  · cases hnone

theorem sourceIp_of_selects {row : Incident} {s : Option String} (hkeyed : Keyed env row)
    (h : (Call.credential none s).Selects env row) (hs : normalized env.text s ≠ "") :
    normalized env.text row.primarySourceIp = normalized env.text s := by
  rcases (selects_credential.mp h).2 with hkey | ⟨hnone, _⟩ | ⟨_, rfl⟩
  · exact hkeyed.sourceIp none s hkey hs
  · cases hnone
  · rfl

theorem credentials_cover_iff (u s u' s' : Option String) :
    LocksCover env (.credential u s) (.credential u' s') ↔
      KeysCover env (.credential u s) (.credential u' s') := by
  constructor
  · intro h
    by_cases hu : s = none ∧ s' = none ∧ normalized env.text u ≠ "" ∧ normalized env.text u' ≠ ""
    · exact .inr (.inr (.inl hu))
    · by_cases hs : u = none ∧ u' = none ∧ normalized env.text s ≠ "" ∧ normalized env.text s' ≠ ""
      · exact .inr (.inr (.inr hs))
      · obtain ⟨row, hrow, hsel, hsel'⟩ := common_row hu hs
        rcases common_credential_keys.mp (common_of_covered h hrow hsel hsel') with hkey | hkey
        · exact .inl hkey
        · exact .inr (.inl hkey)
  · intro h row hrow htakes htakes'
    have hkeyed := keyed_reached hrow
    have hsel := Call.takes_iff.mp htakes
    have hsel' := Call.takes_iff.mp htakes'
    refine covered_of_key (common_credential_keys.mpr ?_)
    rcases h with h | h | ⟨rfl, rfl, hu, hu'⟩ | ⟨rfl, rfl, hs, hs'⟩
    · exact .inl h
    · exact .inr h
    · have husername := username_of_selects hkeyed hsel hu
      exact .inl ⟨hu, husername.symm.trans (username_of_selects hkeyed hsel' hu')⟩
    · have hip := sourceIp_of_selects hkeyed hsel hs
      exact .inr ⟨hs, hip.symm.trans (sourceIp_of_selects hkeyed hsel' hs')⟩

theorem named_finding_row (env : Env) (u s : Option String) (event : Event) (alert : Alert) :
    ∃ row, Reached env row ∧ row.status = "open" ∧
      row.correlationKey = eventFindingKey env event ∧ row.primaryUsername = u ∧
        row.primarySourceIp = s :=
  ⟨_, .created (.cloudFinding event { alert with username := u, sourceIp := s }) ⟨0, 0, rfl⟩,
    rfl, rfl, rfl, rfl⟩

theorem finding_cover_iff (u s : Option String) (event : Event) (alert : Alert) :
    LocksCover env (.credential u s) (.cloudFinding event alert) ↔ u = none ∧ s = none := by
  constructor
  · intro h
    obtain ⟨row, hrow, hopen, hkey, husername, hip⟩ :=
      named_finding_row env u s event alert
    have hfinding : (Call.cloudFinding event alert).Selects env row :=
      selects_cloudFinding.mpr ⟨hopen, hkey⟩
    have hunselected : ¬ (Call.credential u s).Selects env row := by
      intro hsel
      obtain ⟨key, hmem, hmem'⟩ := common_of_covered h hrow hsel hfinding
      exact no_common_key hmem hmem'
    constructor
    · cases u with
      | none => rfl
      | some a =>
          exact absurd (selects_of_username hopen husername) hunselected
    · cases s with
      | none => rfl
      | some b =>
          exact absurd (selects_of_sourceIp hopen hip) hunselected
  · rintro ⟨rfl, rfl⟩ row hrow htakes htakes'
    obtain ⟨_, hsel⟩ := selects_credential.mp (Call.takes_iff.mp htakes)
    obtain ⟨_, hkey'⟩ := selects_cloudFinding.mp (Call.takes_iff.mp htakes')
    rcases hsel with hkey | ⟨hnone, _⟩ | ⟨hnone, _⟩
    · exact absurd (hkey.symm.trans hkey') (credentialKey_ne_findingKey none none event)
    · cases hnone
    · cases hnone

theorem findings_cover (event event' : Event) (alert alert' : Alert) :
    LocksCover env (.cloudFinding event alert) (.cloudFinding event' alert') := by
  intro row hrow htakes htakes'
  obtain ⟨_, hkey⟩ := selects_cloudFinding.mp (Call.takes_iff.mp htakes)
  obtain ⟨_, hkey'⟩ := selects_cloudFinding.mp (Call.takes_iff.mp htakes')
  refine covered_of_key ⟨eventFindingKey env event, List.mem_singleton_self _, ?_⟩
  rw [← hkey, hkey']
  exact List.mem_singleton_self _

theorem locks_cover_iff (env : Env) (call call' : Call) :
    LocksCover env call call' ↔ KeysCover env call call' := by
  cases call with
  | credential u s =>
      cases call' with
      | credential u' s' => exact credentials_cover_iff u s u' s'
      | cloudFinding event' alert' => exact finding_cover_iff u s event' alert'
  | cloudFinding event alert =>
      cases call' with
      | credential u' s' =>
          have hiff := @finding_cover_iff env u' s' event alert
          exact ⟨fun h => hiff.mp (locksCover_symm h), fun h => locksCover_symm (hiff.mpr h)⟩
      | cloudFinding event' alert' =>
          exact ⟨fun _ => trivial, fun _ => findings_cover event event' alert alert'⟩

end Iff

section Calls

variable {env : Env} {db db' : Database} {alert : Alert}

def callOf (env : Env) (db : Database) (alert : Alert) : Option Call :=
  if alert.ruleId = cloudFindingId then
    (db.eventById alert.eventId).map fun event => .cloudFinding event alert
  else if alert.ruleId ∈ allowedRules ∧ candidateAlerts env db alert ≠ [] then
    some (.credential (primaryUsername env db alert) (primarySourceIp env db alert))
  else none

theorem correlationLocks_eq : correlationLocks env db alert =
    ((callOf env db alert).map (Call.lockKeys env)).getD [] := by
  unfold correlationLocks callOf
  split
  · have hget : db.getByIds [alert.eventId] alert.eventId = db.eventById alert.eventId := by
      simp [getByIds]
    rw [hget]
    cases db.eventById alert.eventId <;> rfl
  · by_cases hrule : alert.ruleId ∈ allowedRules
    · rw [if_neg (not_not.mpr hrule)]
      cases hcandidates : candidateAlerts env db alert with
      | nil => simp
      | cons candidate candidates =>
          rw [if_pos ⟨hrule, List.cons_ne_nil _ _⟩]
          simp only [primaryUsername, primarySourceIp, hcandidates]
          rfl
    · rw [if_pos hrule, if_neg fun h => hrule h.1]
      rfl

theorem Correlated.takes (h : Correlated env db alert db') :
    db' = db ∨ ∃ call row row' alertIds, callOf env db alert = some call ∧ call.Takes env row ∧
      (row ∈ db.incidents ∨ call.Creates env row) ∧ call.Refreshes env row row' ∧
        Merged db db' row row' alertIds := by
  cases h with
  | ignored rule candidates same => exact .inl same
  | credential row row' firstSeen lastSeen rule candidates merged target refresh first last =>
      have hfinding : alert.ruleId ≠ cloudFindingId := by
        intro h
        rw [h] at rule
        exact cloudFinding_not_allowed rule
      have hcall : callOf env db alert = some (.credential (primaryUsername env db alert)
          (primarySourceIp env db alert)) := by
        rw [callOf, if_neg hfinding, if_pos ⟨rule, candidates⟩]
      have hrefresh : (Call.credential (primaryUsername env db alert)
          (primarySourceIp env db alert)).Refreshes env row row' := ⟨_, _, _, _, refresh⟩
      refine .inr ⟨_, row, row', _, hcall, ?_, ?_, hrefresh, merged⟩
      · rcases target with ⟨_, hmatch, _⟩ | ⟨_, oldest, newest, rfl⟩
        · simp only [credentialMatch, isOpenRelated, Bool.and_eq_true, decide_eq_true_eq] at hmatch
          exact .inl hmatch.1
        · exact .inr ⟨oldest, newest, db.nextId, rfl⟩
      · rcases target with ⟨hrow, _⟩ | ⟨_, oldest, newest, rfl⟩
        · exact .inl hrow
        · exact .inr ⟨oldest, newest, db.nextId, rfl⟩
  | finding event row row' scores topScore lastSeen rule found merged target refresh scored top
      last =>
      have hcall : callOf env db alert = some (.cloudFinding event alert) := by
        rw [callOf, if_pos rule, found]
        rfl
      have hrefresh : (Call.cloudFinding event alert).Refreshes env row row' :=
        ⟨_, _, _, _, refresh⟩
      refine .inr ⟨_, row, row', _, hcall, ?_, ?_, hrefresh, merged⟩
      · rcases target with ⟨_, hmatch, _⟩ | ⟨_, score, _, rfl⟩
        · simp only [findingMatch, isOpenRelated, Bool.and_eq_true, decide_eq_true_eq] at hmatch
          exact .inl hmatch.1
        · exact .inr ⟨score, db.nextId, rfl⟩
      · rcases target with ⟨hrow, _⟩ | ⟨_, score, _, rfl⟩
        · exact .inl hrow
        · exact .inr ⟨score, db.nextId, rfl⟩

def AllReached (env : Env) (db : Database) : Prop :=
  ∀ row ∈ db.incidents, Reached env row

theorem reached_correlate (hdb : AllReached env db) (h : Correlated env db alert db') :
    AllReached env db' := by
  rcases h.takes with rfl | ⟨call, row, row', alertIds, _, htakes, hsource, hrefresh, hm⟩
  · exact hdb
  · intro r hr
    rcases (hm.mem r).mp hr with rfl | ⟨hr, _⟩
    · rcases hsource with hrow | hcreates
      · exact (hdb row hrow).refreshed call htakes hrefresh
      · exact (Reached.created call hcreates).refreshed call htakes hrefresh
    · exact hdb r hr

theorem preserved_reached (env : Env) :
    Preserved env (fun _ _ => True) fun db _ => AllReached env db where
  detect := by
    intro db db' payload alerts _ hdb hd row hrow
    exact hdb row (hd.incidents ▸ hrow)
  correlate := by
    intro db db' alert pending _ hdb _ h
    exact reached_correlate hdb h
  manual := by
    intro db payload _ hdb row hrow
    rcases mem_createManualIncident hrow with hrow | rfl
    · exact hdb row hrow
    · exact .manual payload db.nextId

theorem reached_of_run (h : Run (handle env) anyStep Database.empty db) : AllReached env db := by
  have hmeets : Run (handle env) (correlationsMeet env fun _ _ => True) Database.empty db :=
    h.mono fun _ _ _ _ _ => trivial
  exact ((preserved_reached env).committed hmeets fun row hrow => absurd hrow List.not_mem_nil).2

end Calls

section Unlocked

instance (env : Env) (call : Call) (row : Incident) : Decidable (call.Selects env row) :=
  inferInstanceAs (Decidable (row.status = "open" ∧
    identifies (call.key env) call.username call.sourceIp row = true))

def Unguarded (env : Env) (row : Incident) (call call' : Call) : Prop :=
  call.Selects env row ∧ call'.Selects env row ∧
    ∀ key ∈ call.lockKeys env, key ∉ call'.lockKeys env

instance (env : Env) (row : Incident) (call call' : Call) :
    Decidable (Unguarded env row call call') :=
  inferInstanceAs (Decidable (call.Selects env row ∧ call'.Selects env row ∧
    ∀ key ∈ call.lockKeys env, key ∉ call'.lockKeys env))

def openedFinding : EventCreate :=
  telemetry "opened" "cloud_finding" 10 (some "victim") (some "198.51.100.60")
    [("account_id", .str "account"), ("provider_finding_id", .str "finding")]

def updatedFinding : EventCreate :=
  telemetry "updated" "cloud_finding" 100 (some "victim") (some "198.51.100.60")
    [("account_id", .str "account"), ("provider_finding_id", .str "finding")]

def success : EventCreate :=
  telemetry "success" "login_success" 100 (some "victim") (some "198.51.100.60") []

theorem locks_miss_finding :
    ∃ db, Run (handle plainEnv) anyStep Database.empty db ∧ ∃ row ∈ db.incidents,
      ∃ p ∈ (Request.createEvent success).correlations plainEnv db,
      ∃ q ∈ (Request.createEvent updatedFinding).correlations plainEnv db,
      ∃ call ∈ callOf plainEnv p.1 p.2, ∃ call' ∈ callOf plainEnv q.1 q.2,
        Unguarded plainEnv row call call' ∧ ¬ LocksCover plainEnv call call' := by
  have hany : (execAll (handle plainEnv) Database.empty [.createEvent openedFinding,
      .createEventsBulk (failures tenIds 0 (some "victim") (some "198.51.100.60"))]).any
        (fun db => decide (∃ row ∈ db.incidents,
          ∃ p ∈ (Request.createEvent success).correlations plainEnv db,
          ∃ q ∈ (Request.createEvent updatedFinding).correlations plainEnv db,
          ∃ call ∈ callOf plainEnv p.1 p.2, ∃ call' ∈ callOf plainEnv q.1 q.2,
            Unguarded plainEnv row call call')) = true := by
    decide
  obtain ⟨db, hrun, hdb⟩ := run_of_execAll_any hany
  obtain ⟨row, hrow, p, hp, q, hq, call, hcall, call', hcall', hfree⟩ := of_decide_eq_true hdb
  refine ⟨db, hrun, row, hrow, p, hp, q, hq, call, hcall, call', hcall', hfree, ?_⟩
  obtain ⟨hsel, hsel', hapart⟩ := hfree
  intro hcover
  obtain ⟨key, hkey, hkey'⟩ := common_of_covered hcover (reached_of_run hrun row hrow) hsel hsel'
  exact hapart key hkey hkey'

end Unlocked

end Correlation
