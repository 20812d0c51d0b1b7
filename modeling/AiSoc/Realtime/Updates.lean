import AiSoc.Library.Decimal
import AiSoc.Realtime.Provider
import AiSoc.Realtime.Publishers

namespace Realtime

section Reactions

def MessageType.entity : MessageType → String
  | .eventCreated => "event"
  | .alertCreated => "alert"
  | .incidentCreated | .incidentUpdated | .evidenceAdded => "incident"
  | .investigationQueued | .investigationRunning | .investigationCompleted
  | .investigationFailed => "investigation"
  | .response _ => "response"

-- the queries that show what the message announces
def concerned (m : Announcement) : List QueryKey :=
  match m.type with
  | .eventCreated => [["dashboard", "summary"]]
  | .alertCreated => [["dashboard", "summary"], ["incidents"]]
  | .incidentCreated | .incidentUpdated | .evidenceAdded =>
      [["dashboard", "summary"], ["incidents"], ["incidents", m.entityId]]
  | .investigationQueued | .investigationRunning | .investigationCompleted
  | .investigationFailed =>
      [["investigations", m.entityId], ["incidents", m.incidentId.getD "", "investigations"]]
  | .response _ => [["incidents", m.incidentId.getD "", "response-actions"]]

def Announcement.WellFormed (m : Announcement) : Prop :=
  m.entityId ≠ "" ∧ (m.type.entity = "investigation" ∨ m.type.entity = "response" →
    ∃ incident, m.incidentId = some incident ∧ incident ≠ "")

variable {m m' : Announcement} {p : Provider}

theorem parts_text (t : MessageType) :
    (parts t.text)[0]? = some t.entity ∧
      ((parts t.text)[1]? = some "created" ∨ t.entity ≠ "event") := by
  cases t with
  | response status => cases status <;> decide
  | _ => decide

theorem text_injective : Function.Injective MessageType.text := by
  intro t t' h
  cases t with
  | response status =>
      cases t' with
      | response status' => cases status <;> cases status' <;> first | rfl | (revert h; decide)
      | _ => cases status <;> (revert h; decide)
  | _ =>
      cases t' with
      | response status' => cases status' <;> (revert h; decide)
      | _ => first | rfl | (revert h; decide)

theorem colon_not_mem_text (t : MessageType) : ∀ c ∈ t.text.toList, c ≠ ':' := by
  have hall : (t.text.toList.all fun c => c ≠ ':') = true := by
    cases t with
    | response status => cases status <;> decide
    | _ => decide
  exact fun c hc => of_decide_eq_true (List.all_eq_true.mp hall c hc)

theorem versionKey_inj {t t' : MessageType} {entityId entityId' : String}
    (h : versionKey t.text entityId = versionKey t'.text entityId') :
    t = t' ∧ entityId = entityId' := by
  have hlist := congrArg String.toList h
  simp only [versionKey, String.toList_append, List.append_assoc] at hlist
  have hstops : ∀ rest : List Char, PyJson.Stops (· ≠ ':') (":".toList ++ rest) := by
    intro rest c hc
    have hcolon : c = ':' := (Option.some.inj hc).symm
    exact fun hne => hne hcolon
  obtain ⟨htype, hentity⟩ := PyJson.append_inj_of_stops (colon_not_mem_text t)
    (colon_not_mem_text t') (hstops _) (hstops _) hlist
  refine ⟨text_injective (String.toList_inj.mp htype), ?_⟩
  exact String.toList_inj.mp (List.append_cancel_left hentity)

theorem react_eq (t : MessageType) (entityId : String) (incidentId : Option String) :
    p.react t.text entityId incidentId =
      if t.entity = "event" then p.onEvent (some "created")
      else if t.entity = "alert" then p.onAlert
      else if t.entity = "incident" then p.onIncident entityId
      else if t.entity = "investigation" then p.onInvestigation entityId incidentId
      else if t.entity = "response" then p.onResponse incidentId
      else p := by
  obtain ⟨hentity, haction⟩ := parts_text t
  simp only [Provider.react, hentity, Option.some.injEq]
  split
  · rename_i hevent
    rcases haction with hcreated | hother
    · rw [hcreated]
    · exact absurd hevent hother
  · rfl

def newEvents (m : Announcement) : Nat :=
  if m.type = .eventCreated then 1 else 0

theorem react_wellFormed (h : m.WellFormed) :
    (p.react m.type.text m.entityId m.incidentId).invalidated = p.invalidated ++ concerned m ∧
      (p.react m.type.text m.entityId m.incidentId).newEventCount =
        p.newEventCount + newEvents m ∧
      (p.react m.type.text m.entityId m.incidentId).receiver = p.receiver := by
  obtain ⟨_, hincident⟩ := h
  rw [react_eq]
  cases htype : m.type with
  | eventCreated =>
      simp [MessageType.entity, concerned, newEvents, htype, Provider.onEvent,
        Provider.invalidate]
  | alertCreated =>
      simp [MessageType.entity, concerned, newEvents, htype, Provider.onAlert,
        Provider.invalidate]
  | incidentCreated | incidentUpdated | evidenceAdded =>
      simp [MessageType.entity, concerned, newEvents, htype, Provider.onIncident,
        Provider.invalidate]
  | investigationQueued | investigationRunning | investigationCompleted | investigationFailed =>
      obtain ⟨incident, hsome, hne⟩ := hincident (.inl (by rw [htype]; rfl))
      simp [MessageType.entity, concerned, newEvents, htype, Provider.onInvestigation,
        Provider.invalidate, hsome, hne]
  | response status =>
      obtain ⟨incident, hsome, hne⟩ := hincident (.inr (by rw [htype]; rfl))
      simp [MessageType.entity, concerned, newEvents, htype, Provider.onResponse,
        Provider.invalidate, hsome, hne]

theorem concerned_ne_nil (m : Announcement) : concerned m ≠ [] := by
  unfold concerned
  cases m.type <;> exact List.cons_ne_nil _ _

end Reactions

end Realtime
