import AiSoc.Correlation.Ingestion
import AiSoc.Events.FindingStorage
import AiSoc.Library.Transition

namespace Findings

open Correlation (Database Scored)
open PyJson

section Sequences

structure History where
  db : Database
  sent : List (ASFFBatch × Response)

namespace History

def empty : History := ⟨Database.empty, []⟩

end History

variable (env : Env)

def send (history : History) (batch : ASFFBatch) : History :=
  ⟨(ingestAsff env history.db batch).2,
    history.sent ++ [(batch, (ingestAsff env history.db batch).1)]⟩

def step (history : History) (batch : ASFFBatch) : Option History :=
  some (send env history batch)

def batchIdentities (batch : ASFFBatch) : List Identity :=
  match convertFindings env batch.findings with
  | .ok _ => activeIdentities env.text batch.findings
  | .error _ => []

def newEvents (db : Database) (batch : ASFFBatch) : List FindingEvent :=
  match convertFindings env batch.findings with
  | .ok events => unseenFindings db [] events
  | .error _ => []

def History.identities (history : History) : List Identity :=
  history.sent.flatMap fun p => batchIdentities env p.1

def Meets (history : History) (batch : ASFFBatch) : Prop :=
  (∀ event ∈ newEvents env history.db batch, Storable event) ∧
    ∀ identity ∈ batchIdentities env batch,
      ∀ other ∈ history.identities env ++ batchIdentities env batch,
        idText identity = idText other → identity = other

instance (history : History) (batch : ASFFBatch) : Decidable (Meets env history batch) :=
  inferInstanceAs (Decidable (_ ∧ _))

structure Counted (findings count : Nat) (details : Details) : Prop where
  accepted : details.accepted = count
  sum : details.accepted + details.duplicates + details.inactiveSkipped = findings

structure ExactlyOnce (history : History) : Prop where
  rejected : ∀ batch : ASFFBatch, (∃ finding ∈ batch.findings, Malformed env finding) →
    ∃ detail, ingestAsff env history.db batch = (.rejected detail, history.db)
  events : (history.db.events.map (·.eventId)).Perm
    ((history.identities env).dedup.map (eventId env))
  resent : ∀ p ∈ history.sent, (ingestAsff env history.db p.1).2 = history.db
  answered : ∀ p ∈ history.sent, (∀ finding ∈ p.1.findings, ¬ Malformed env finding) →
    ∃ count details, p.2 = .ingested count details ∧ Counted p.1.findings.length count details

end Sequences

section Batch

variable {env : Env} {db : Database} {batch : ASFFBatch}

theorem ingestAsff_rejected (h : ∃ finding ∈ batch.findings, Malformed env finding) :
    ∃ detail, convertFindings env batch.findings = .error detail ∧
      ingestAsff env db batch = (.rejected detail, db) := by
  cases hconvert : convertFindings env batch.findings with
  | error detail =>
      refine ⟨detail, rfl, ?_⟩
      rw [ingestAsff, hconvert]
  | ok events =>
      obtain ⟨finding, hfinding, hmalformed⟩ := h
      exact absurd hmalformed (convertFindings_ok_iff.mp ⟨events, hconvert⟩ finding hfinding)

structure Ingested (env : Env) (db : Database) (batch : ASFFBatch) (events : List FindingEvent) :
    Prop where
  sound : Scored (ingestAsff env db batch).2
  ids : storedIds (ingestAsff env db batch).2 =
    storedIds db ++ (unseenFindings db [] events).map (·.eventId)
  answer : ∃ count details, (ingestAsff env db batch).1 = .ingested count details ∧
    Counted batch.findings.length count details

theorem adapted_of_conversion {events : List FindingEvent}
    (h : convertFindings env batch.findings = .ok events) :
    ∀ event ∈ events, Adapted env event := by
  intro event hevent
  obtain ⟨active, _, h⟩ := Except.bind_ok_iff.mp h
  obtain ⟨finding, _, hadapted⟩ := Except.mem_of_mapM_ok h hevent
  obtain ⟨_, identity, timestamp, aware, resource, data, kind, _, rfl⟩ := asffToEvent_ok hadapted
  exact ⟨identity, timestamp, aware, finding, resource, data, kind, rfl⟩

theorem ingestAsff_ingested {events : List FindingEvent} (hsound : Scored db)
    (hscores : Scores env) (h : convertFindings env batch.findings = .ok events)
    (hstorable : ∀ event ∈ unseenFindings db [] events, Storable event) :
    Ingested env db batch events := by
  have hsub : (unseenFindings db [] events).Sublist events := unseenFindings_sublist [] events
  have hadapted : ∀ event ∈ unseenFindings db [] events, Adapted env event :=
    fun event hevent => adapted_of_conversion h event (hsub.subset hevent)
  have hfresh : ∀ event ∈ unseenFindings db [] events, event.eventId ∉ storedIds db := by
    intro event hevent
    have hmem := (mem_unseenFindings event.eventId [] events).mp
      (List.mem_map.mpr ⟨event, hevent, rfl⟩)
    exact hmem.2.2
  obtain ⟨db', hbulk, hsound', hids⟩ := createEventsBulk_succeeds hsound hscores hadapted hstorable
    (unseenFindings_nodup [] events) hfresh
  have hresult : ingestAsff env db batch =
      (.ingested (unseenFindings db [] events).length
        { accepted := (unseenFindings db [] events).length
          duplicates := events.length - (unseenFindings db [] events).length
          inactiveSkipped := batch.findings.length - events.length }, db') := by
    rw [ingestAsff, h]
    simp only [hbulk]
  refine ⟨?_, ?_, _, _, congrArg Prod.fst hresult, rfl, ?_⟩
  · rw [hresult]
    exact hsound'
  · rw [hresult]
    exact hids
  · simp only
    omega

end Batch

section Ledger

structure Ledger (env : Env) (history : History) : Prop where
  sound : Scored history.db
  nodup : (storedIds history.db).Nodup
  ids : ∀ id, id ∈ storedIds history.db ↔
    id ∈ (history.identities env).map (some ∘ eventId env)
  apart : ∀ identity ∈ history.identities env, ∀ other ∈ history.identities env,
    idText identity = idText other → identity = other
  answered : ∀ p ∈ history.sent, (∀ finding ∈ p.1.findings, ¬ Malformed env finding) →
    ∃ count details, p.2 = .ingested count details ∧ Counted p.1.findings.length count details

variable {env : Env} {history : History} {batch : ASFFBatch}

theorem identities_send : (send env history batch).identities env =
    history.identities env ++ batchIdentities env batch := by
  rw [send, History.identities, History.identities, List.flatMap_append, List.flatMap_singleton]

theorem ledger_empty (env : Env) : Ledger env .empty where
  sound := fun _ halert => absurd halert List.not_mem_nil
  nodup := List.nodup_nil
  ids := fun _ => Iff.rfl
  apart := nofun
  answered := nofun

theorem apart_send (h : Ledger env history) (hmeets : Meets env history batch) :
    ∀ identity ∈ (send env history batch).identities env,
      ∀ other ∈ (send env history batch).identities env,
        idText identity = idText other → identity = other := by
  obtain ⟨_, hapart⟩ := hmeets
  rw [identities_send]
  intro identity hidentity other hother htext
  rcases List.mem_append.mp hidentity with hold | hnew
  · rcases List.mem_append.mp hother with hold' | hnew'
    · exact h.apart identity hold other hold' htext
    · exact (hapart other hnew' identity (List.mem_append_left _ hold) htext.symm).symm
  · exact hapart identity hnew other hother htext

theorem ledger_rejected (h : Ledger env history) (hmeets : Meets env history batch)
    (hmalformed : ∃ finding ∈ batch.findings, Malformed env finding) :
    Ledger env (send env history batch) := by
  obtain ⟨detail, hconvert, hrejected⟩ := ingestAsff_rejected hmalformed
  have hnone : batchIdentities env batch = [] := by
    rw [batchIdentities, hconvert]
  have hidentities : (send env history batch).identities env = history.identities env := by
    rw [identities_send, hnone, List.append_nil]
  have hdb : (send env history batch).db = history.db := by
    rw [send, hrejected]
  refine ⟨hdb ▸ h.sound, hdb ▸ h.nodup, ?_, apart_send h hmeets, ?_⟩
  · rw [hdb, hidentities]
    exact h.ids
  · intro p hp hwell
    rcases List.mem_append.mp hp with hold | hlast
    · exact h.answered p hold hwell
    · obtain rfl := List.mem_singleton.mp hlast
      obtain ⟨finding, hfinding, hbad⟩ := hmalformed
      exact absurd hbad (hwell finding hfinding)

theorem ledger_ingested {events : List FindingEvent} (hscores : Scores env)
    (h : Ledger env history) (hmeets : Meets env history batch)
    (hconvert : convertFindings env batch.findings = .ok events) :
    Ledger env (send env history batch) := by
  have hstorable : ∀ event ∈ unseenFindings history.db [] events, Storable event := by
    have hnew := hmeets.1
    rw [newEvents, hconvert] at hnew
    exact hnew
  obtain ⟨hsound, hids, hanswer⟩ := ingestAsff_ingested h.sound hscores hconvert hstorable
  have hbatch : batchIdentities env batch = activeIdentities env.text batch.findings := by
    rw [batchIdentities, hconvert]
  have hevents := convertFindings_eventIds hconvert
  refine ⟨hsound, ?_, ?_, apart_send h hmeets, ?_⟩
  · have hfresh : ∀ id ∈ (unseenFindings history.db [] events).map (·.eventId),
        id ∉ storedIds history.db := fun id hid => ((mem_unseenFindings id [] events).mp hid).2.2
    rw [send, hids]
    refine List.nodup_append.mpr ⟨h.nodup, unseenFindings_nodup [] events, ?_⟩
    rintro id hold other hnew rfl
    exact hfresh id hnew hold
  · intro id
    rw [identities_send, List.map_append, List.mem_append, send, hids, List.mem_append, ← h.ids,
      mem_unseenFindings, hbatch, ← hevents]
    constructor
    · rintro (hold | ⟨hmem, _⟩)
      · exact .inl hold
      · exact .inr hmem
    · rintro (hold | hmem)
      · exact .inl hold
      · by_cases hold : id ∈ storedIds history.db
        · exact .inl hold
        · exact .inr ⟨hmem, List.not_mem_nil, hold⟩
  · intro p hp hwell
    rcases List.mem_append.mp hp with hold | hlast
    · exact h.answered p hold hwell
    · obtain rfl := List.mem_singleton.mp hlast
      exact hanswer

theorem ledger_send (hscores : Scores env) (h : Ledger env history)
    (hmeets : Meets env history batch) : Ledger env (send env history batch) := by
  by_cases hmalformed : ∃ finding ∈ batch.findings, Malformed env finding
  · exact ledger_rejected h hmeets hmalformed
  · have hwell : ∀ finding ∈ batch.findings, ¬ Malformed env finding :=
      fun finding hfinding hbad => hmalformed ⟨finding, hfinding, hbad⟩
    obtain ⟨events, hconvert⟩ := convertFindings_ok_iff.mpr hwell
    exact ledger_ingested hscores h hmeets hconvert

end Ledger

section Delivery

variable {env : Env} {history : History}

theorem eventId_inj {identity other : Identity} (hsha : Function.Injective env.sha256)
    (h : eventId env identity = eventId env other) : idText identity = idText other :=
  hsha (Correlation.append_left_inj.mp h)

theorem Ledger.events (h : Ledger env history) (hsha : Function.Injective env.sha256) :
    (history.db.events.map (·.eventId)).Perm
      ((history.identities env).dedup.map (eventId env)) := by
  have hinjective : ∀ identity ∈ (history.identities env).dedup,
      ∀ other ∈ (history.identities env).dedup,
        eventId env identity = eventId env other → identity = other := by
    intro identity hidentity other hother heq
    exact h.apart identity (List.mem_dedup.mp hidentity) other (List.mem_dedup.mp hother)
      (eventId_inj hsha heq)
  have hsome : storedIds history.db = (history.db.events.map (·.eventId)).map some := by
    rw [storedIds, List.map_map]
    rfl
  have hstored : (history.db.events.map (·.eventId)).Nodup := by
    have hnodup := h.nodup
    rw [hsome] at hnodup
    exact hnodup.of_map
  refine (List.perm_ext_iff_of_nodup hstored
    ((List.nodup_dedup _).map_on hinjective)).mpr fun id => ?_
  have hmem := h.ids (some id)
  rw [hsome] at hmem
  simpa only [List.mem_map, Option.some.injEq, exists_eq_right, Function.comp_apply,
    List.mem_dedup] using hmem

theorem Ledger.resent (h : Ledger env history) :
    ∀ p ∈ history.sent, (ingestAsff env history.db p.1).2 = history.db := by
  intro p hp
  rw [ingestAsff]
  cases hconvert : convertFindings env p.1.findings with
  | error detail => rfl
  | ok events =>
      have hstored : ∀ event ∈ events, event.eventId ∈ storedIds history.db := by
        intro event hevent
        have hid : event.eventId ∈ events.map (·.eventId) := List.mem_map.mpr ⟨event, hevent, rfl⟩
        rw [convertFindings_eventIds hconvert] at hid
        have hsub : ∀ identity ∈ activeIdentities env.text p.1.findings,
            identity ∈ history.identities env := by
          intro identity hidentity
          refine List.mem_flatMap.mpr ⟨p, hp, ?_⟩
          rw [batchIdentities, hconvert]
          exact hidentity
        exact (h.ids event.eventId).mpr (List.map_subset _ hsub hid)
      simp only [unseenFindings_eq_nil hstored]
      rfl

theorem findings_ingested_once (hsha : Function.Injective env.sha256) (hscores : Scores env)
    (h : Transition.Run (step env) (Meets env) .empty history) : ExactlyOnce env history := by
  have hledger : Ledger env history := by
    refine h.invariant ?_ (ledger_empty env)
    intro s batch s' hs hmeets hstep
    cases hstep
    exact ledger_send hscores hs hmeets
  refine ⟨fun batch hmalformed => ?_, hledger.events hsha, hledger.resent, hledger.answered⟩
  obtain ⟨detail, _, hrejected⟩ := ingestAsff_rejected hmalformed
  exact ⟨detail, hrejected⟩

end Delivery

section Samples

def publicBucket : String := "123456789012:example/finding-1:2026-01-01T00:00:00+00:00"
def publicBucketDigest : String :=
  "57c41dd60b82cbcba7ed8b0481669bd5e596d65ff0c6aa329a464957367f0cd2"

def otherBucket : String := "123456789012:example/finding-2:2026-01-01T00:00:00Z"
def otherBucketDigest : String :=
  "513f8abd605a6f97eae0f60f7232dfa9a539d49d3837c4c0e58c8c087ae616b3"

def digest (text : String) : String :=
  if text = publicBucket then publicBucketDigest
  else if text = otherBucket then otherBucketDigest
  else "digest of " ++ text

def plainEnv : Env where
  toEnv := Correlation.plainEnv
  isdigit text := text ≠ "" ∧ text.toList.all fun c => '0' ≤ c ∧ c ≤ '9'
  isoformatError text := "Invalid isoformat string: '" ++ text ++ "'"
  sha256 := digest

def asffFinding (findingId updated : String) : Obj :=
  [("Id", .str findingId), ("AwsAccountId", .str "123456789012"), ("UpdatedAt", .str updated),
    ("Types", .arr [.str "S3/Public exposure"]), ("Severity", .obj [("Label", .str "HIGH")]),
    ("Resources", .arr [.obj [("Id", .str "arn:aws:s3:::private-demo"),
      ("Type", .str "AwsS3Bucket")]])]

def archived (finding : Obj) : Obj :=
  ("RecordState", .str "ARCHIVED") :: finding

def firstFinding : Obj := asffFinding "example/finding-1" "2026-01-01T00:00:00+00:00"

def secondFinding : Obj := asffFinding "example/finding-2" "2026-01-01T00:00:00Z"

def sentBatches : List ASFFBatch :=
  [⟨[firstFinding, firstFinding, archived secondFinding], List.cons_ne_nil _ _, by decide⟩,
    ⟨[firstFinding, secondFinding], List.cons_ne_nil _ _, by decide⟩,
    ⟨[secondFinding, []], List.cons_ne_nil _ _, by decide⟩]

theorem digest_ne {known : String} (h : known.toList.head? ≠ some 'd') (text : String) :
    known ≠ "digest of " ++ text := by
  rintro rfl
  have hstart : "digest of ".toList.head? = some 'd' := by decide
  rw [String.toList_append, List.head?_append, hstart] at h
  exact h rfl

theorem digest_injective : Function.Injective digest := by
  have hpublic : publicBucketDigest.toList.head? ≠ some 'd' := by decide
  have hother : otherBucketDigest.toList.head? ≠ some 'd' := by decide
  have hdifferent : publicBucketDigest ≠ otherBucketDigest := by decide
  intro text text' h
  rw [digest, digest] at h
  split at h
  · rename_i htext
    split at h
    · rename_i htext'
      exact htext.trans htext'.symm
    · split at h
      · exact absurd h hdifferent
      · exact absurd h (digest_ne hpublic text')
  · split at h
    · rename_i htext
      split at h
      · exact absurd h.symm hdifferent
      · split at h
        · rename_i htext'
          exact htext.trans htext'.symm
        · exact absurd h (digest_ne hother text')
    · split at h
      · exact absurd h.symm (digest_ne hpublic text)
      · split at h
        · exact absurd h.symm (digest_ne hother text)
        · exact Correlation.append_left_inj.mp h

theorem sent_batches_ingested_once : ∃ history : History,
    history.sent.length = 3 ∧ history.db.events.length = 2 ∧ ExactlyOnce plainEnv history := by
  have hrun : ∃ history, Transition.Run (step plainEnv)
      (fun s batch => decide (Meets plainEnv s batch) = true) .empty history ∧
      decide (history.sent.length = 3 ∧ history.db.events.length = 2) = true :=
    @Transition.run_of_execWhile_any _ _ _ _ sentBatches _ _ (by decide)
  obtain ⟨history, hrun, hlengths⟩ := hrun
  obtain ⟨hsent, hevents⟩ := of_decide_eq_true hlengths
  refine ⟨history, hsent, hevents, ?_⟩
  exact findings_ingested_once digest_injective (fun _ _ _ => ⟨none, rfl⟩)
    (hrun.mono fun _ _ hmeets => of_decide_eq_true hmeets)

def earliestBatch : ASFFBatch :=
  ⟨[asffFinding "example/finding-1" "0001-01-01T00:00:00+01:00"], List.cons_ne_nil _ _, by decide⟩

def zeroBatch : ASFFBatch :=
  ⟨[asffFinding "example/finding-1\x00" "2026-01-01T00:00:00Z"], List.cons_ne_nil _ _, by decide⟩

def sharedBatch : ASFFBatch :=
  ⟨[asffFinding "f" "2024-01-01:20240101", asffFinding "f:2024-01-01" "20240101"],
    List.cons_ne_nil _ _, by decide⟩

theorem not_once_of_lengths {env : Env} {history : History}
    (h : history.db.events.length ≠ (history.identities env).dedup.length) :
    ¬ ExactlyOnce env history := by
  intro honce
  have hlength := honce.events.length_eq
  rw [List.length_map, List.length_map] at hlength
  exact h hlength

theorem findings_lost : ¬ ExactlyOnce plainEnv (send plainEnv .empty earliestBatch) ∧
    ¬ ExactlyOnce plainEnv (send plainEnv .empty zeroBatch) ∧
    ¬ ExactlyOnce plainEnv (send plainEnv .empty sharedBatch) := by
  refine ⟨not_once_of_lengths ?_, not_once_of_lengths ?_, not_once_of_lengths ?_⟩
  · decide
  · decide
  · decide

end Samples

end Findings
