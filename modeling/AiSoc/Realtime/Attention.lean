import AiSoc.Realtime.Deliveries

namespace Realtime

open Permissions (Uuid Timestamp)
open PyStr (uuidText_ne_empty)
open Suppression Transition

section Messages

variable {env : Env} {m : Announcement}

theorem wellFormed_ofIncident {type : MessageType} {id incidentId : Uuid} {version : Int}
    {change : Option Nat} :
    (⟨type, PyStr.uuidText id, version, some (PyStr.uuidText incidentId), change⟩ :
      Announcement).WellFormed :=
  ⟨uuidText_ne_empty id, fun _ => ⟨_, rfl, uuidText_ne_empty incidentId⟩⟩

theorem wellFormed_ofTelemetry {type : MessageType} {entityId : String} {version : Int}
    {incidentId : Option String} {change : Option Nat} (hentity : entityId ≠ "")
    (htype : type.entity ≠ "investigation" ∧ type.entity ≠ "response") :
    (⟨type, entityId, version, incidentId, change⟩ : Announcement).WellFormed :=
  ⟨hentity, fun h => absurd h (not_or.mpr htype)⟩

theorem wellFormed_publishRealtime {eventId : String} {alerts : List Uuid}
    {incidents : List Correlated} {change : Nat} (hevent : eventId ≠ "") :
    ∀ m ∈ publishRealtime env eventId alerts incidents change, m.WellFormed := by
  intro m hm
  rcases List.mem_append.mp hm with htelemetry | hincident
  · rcases List.mem_cons.mp htelemetry with hfirst | halert
    · rw [hfirst]
      exact wellFormed_ofTelemetry hevent (by decide)
    · obtain ⟨id, _, heq⟩ := List.mem_map.mp halert
      rw [← heq]
      exact wellFormed_ofTelemetry (uuidText_ne_empty id) (by decide)
  · obtain ⟨incident, _, heq⟩ := List.mem_map.mp hincident
    rw [← heq]
    exact wellFormed_ofIncident

def WellFormedOutbox (outbox : List (List Announcement)) : Prop :=
  ∀ handler ∈ outbox, ∀ m ∈ handler, m.WellFormed

variable {b b' : Backend}

theorem wellFormed_commit (h : WellFormedOutbox b.outbox) {announcements : List Announcement}
    (hnew : ∀ m ∈ announcements, m.WellFormed) :
    WellFormedOutbox (b.commit announcements).outbox := by
  intro handler hhandler m hm
  rcases List.mem_append.mp hhandler with hold | hlast
  · exact h handler hold m hm
  · rw [List.mem_singleton.mp hlast] at hm
    exact hnew m hm

theorem wellFormed_commitOne (h : WellFormedOutbox b.outbox) (hm : m.WellFormed) :
    WellFormedOutbox (b.commit [m]).outbox := by
  refine wellFormed_commit h ?_
  intro m' hm'
  rw [List.mem_singleton.mp hm']
  exact hm

theorem wellFormed_moveInvestigation {id : Uuid} {source : InvestigationStatus → Bool}
    {target : InvestigationStatus} {type : MessageType} {now : Timestamp}
    (h : WellFormedOutbox b.outbox)
    (hmove : b.moveInvestigation env id source target type now = some b') :
    WellFormedOutbox b'.outbox := by
  simp only [Backend.moveInvestigation] at hmove
  split at hmove
  · cases hmove
  · split at hmove
    · cases hmove
      exact wellFormed_commitOne h wellFormed_ofIncident
    · cases hmove

theorem wellFormed_moveAction {id : Uuid} {source target : ResponseActions.ActionStatus}
    {now : Timestamp} (h : WellFormedOutbox b.outbox)
    (hmove : b.moveAction env id source target now = some b') :
    WellFormedOutbox b'.outbox := by
  simp only [Backend.moveAction] at hmove
  split at hmove
  · cases hmove
  · split at hmove
    · cases hmove
      exact wellFormed_commitOne h wellFormed_ofIncident
    · cases hmove

theorem wellFormed_transact {transaction : Transaction} (h : WellFormedOutbox b.outbox)
    (hstep : b.transact env transaction = some b') : WellFormedOutbox b'.outbox := by
  cases transaction with
  | requestInvestigation id incidentId now =>
      cases hstep
      exact wellFormed_commitOne h wellFormed_ofIncident
  | requestNotQueued id incidentId now =>
      simp only [Backend.transact] at hstep
      split at hstep
      · cases hstep
        exact wellFormed_commit h fun _ hm => absurd hm List.not_mem_nil
      · cases hstep
  | claim id now =>
      simp only [Backend.transact] at hstep
      exact wellFormed_moveInvestigation h hstep
  | complete id now =>
      simp only [Backend.transact] at hstep
      exact wellFormed_moveInvestigation h hstep
  | fail id now =>
      simp only [Backend.transact] at hstep
      exact wellFormed_moveInvestigation h hstep
  | createIncident id =>
      cases hstep
      exact wellFormed_commitOne h (wellFormed_ofTelemetry (uuidText_ne_empty id) (by decide))
  | ingest items =>
      simp only [Backend.transact] at hstep
      split at hstep
      · rename_i hids
        cases hstep
        refine wellFormed_commit h ?_
        intro m hm
        obtain ⟨item, hitem, hm⟩ := List.mem_flatMap.mp hm
        have hevent : item.1 ≠ "" := of_decide_eq_true (List.all_eq_true.mp hids item hitem)
        exact wellFormed_publishRealtime hevent m hm
      · cases hstep
  | addEvidence incidentId createdAt =>
      cases hstep
      exact wellFormed_commitOne h wellFormed_ofIncident
  | propose id incidentId now =>
      simp only [Backend.transact] at hstep
      split at hstep
      · cases hstep
        exact wellFormed_commitOne h wellFormed_ofIncident
      · cases hstep
        exact wellFormed_commitOne h wellFormed_ofIncident
  | decide id approve now =>
      simp only [Backend.transact] at hstep
      exact wellFormed_moveAction h hstep
  | execute id now =>
      simp only [Backend.transact] at hstep
      exact wellFormed_moveAction h hstep
  | finish id succeeded now =>
      simp only [Backend.transact] at hstep
      exact wellFormed_moveAction h hstep

theorem wellFormed_pop {outbox outbox' : List (List Announcement)} {handler : Nat}
    (h : WellFormedOutbox outbox) (hpop : popOutbox outbox handler = some (m, outbox')) :
    m.WellFormed ∧ WellFormedOutbox outbox' := by
  simp only [popOutbox] at hpop
  split at hpop
  · rename_i rest hrest
    cases hpop
    have hmem := List.mem_of_getElem? hrest
    refine ⟨h _ hmem m List.mem_cons_self, ?_⟩
    intro handler' hhandler m' hm'
    rcases List.mem_or_eq_of_mem_set hhandler with hold | hnew
    · exact h handler' hold m' hm'
    · rw [hnew] at hm'
      exact h _ hmem m' (List.mem_cons_of_mem _ hm')
  · cases hpop

end Messages

section Handling

variable {env : Env} {m : Announcement} {p : Provider} {index : Nat}

def offerOf (env : Env) (index : Nat) (m : Announcement) : Offer String String :=
  ⟨env.messageId index, versionKey m.type.text m.entityId, m.version⟩

def Provider.offer (env : Env) (p : Provider) (index : Nat) (m : Announcement) :
    Receiver String String × Bool :=
  p.receiver.offer maxSeenMessages (-1) (offerOf env index m)

theorem text_ne (t : MessageType) : t.text ≠ "system.heartbeat" ∧ t.text ≠ "" := by
  cases t with
  | response status => cases status <;> decide
  | _ => decide

theorem handle_parsed (h : m.WellFormed) :
    p.handleMessage (some (parsed env index m)) =
      if (p.offer env index m).2 then
        { p with receiver := (p.offer env index m).1 }.react m.type.text m.entityId m.incidentId
      else { p with receiver := (p.offer env index m).1 } := by
  obtain ⟨hbeat, htype⟩ := text_ne m.type
  have hkept : ¬ (env.messageId index = "" ∨ m.type.text = "" ∨ m.entityId = "") := by
    simp [env.messageId_ne_empty index, htype, h.1]
  have hheartbeat : (some m.type.text : Option String) ≠ some "system.heartbeat" := by
    simpa using hbeat
  simp only [Provider.handleMessage, parsed, if_neg hheartbeat, if_neg hkept]
  rfl

variable (env index) in
theorem receiver_handle (h : m.WellFormed) :
    (p.handleMessage (some (parsed env index m))).receiver = (p.offer env index m).1 := by
  rw [handle_parsed h]
  split
  · rw [(react_wellFormed h).2.2]
  · rfl

variable (env index) in
theorem heard_iff {d : Delivery} (h : d.message.WellFormed)
    (hafter : d.after = d.before.handleMessage (some (parsed env index d.message))) :
    (d.Heard ↔ (d.before.offer env index d.message).2 = true) ∧
      ((d.before.offer env index d.message).2 = false → d.Quiet) := by
  rw [handle_parsed h] at hafter
  cases haccepted : (d.before.offer env index d.message).2 with
  | false =>
      rw [haccepted] at hafter
      simp only [Bool.false_eq_true, if_false] at hafter
      have hquiet : d.Quiet := by
        rw [Delivery.Quiet, hafter]
        exact ⟨rfl, rfl⟩
      refine ⟨⟨?_, fun hfalse => absurd hfalse Bool.false_ne_true⟩, fun _ => hquiet⟩
      intro hheard
      have hsame := hheard.2.1
      rw [hquiet.1] at hsame
      exact absurd (List.self_eq_append_right.mp hsame) (concerned_ne_nil _)
  | true =>
      rw [haccepted] at hafter
      simp only [if_true] at hafter
      refine ⟨⟨fun _ => rfl, fun _ => ?_⟩, fun hfalse => absurd hfalse.symm Bool.false_ne_true⟩
      refine ⟨lt_of_offer haccepted, ?_⟩
      rw [hafter]
      exact ⟨(react_wellFormed h).1, (react_wellFormed h).2.1⟩

end Handling

end Realtime
