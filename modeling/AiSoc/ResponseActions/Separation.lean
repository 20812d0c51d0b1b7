import AiSoc.ResponseActions.Api

namespace ResponseActions

open Permissions

def ActionStatus.pursued : ActionStatus → Bool
  | .approved | .running | .succeeded | .failed => true
  | .proposed | .rejected => false

def DecidedBy (P : RoleName → Prop) (api : Api) : Prop :=
  ∀ p ∈ api.actions, p.2.status.pursued = true → ∃ approver role,
    p.2.approvedBy = some approver ∧ approver ≠ p.2.proposedBy ∧
      api.decidedAs p.1 = some role ∧ P role

def Separated (api : Api) : Prop :=
  DecidedBy (· = .admin) api

structure Approval (settings : Settings) (api : Api) (request : Request) (id actorId : Uuid)
    (user : User) (row : ResponseAction) : Prop where
  sent : ∃ now, request = .decide (some actorId) id "approve" now
  known : api.users actorId = some user
  active : user.isActive = true
  found : api.actions.lookup id = some row
  proposed : row.status = .proposed
  other : row.proposedBy ≠ actorId
  enabled : row.actionType = .revokeAppSessions ∨ settings.awsResponseEnabled = true

def Supervised (settings : Settings) (api : Api) (request : Request) : Prop :=
  ∀ id actorId user row, Approval settings api request id actorId user row →
    user.roleName ≠ .analyst

section Rows

variable {api : Api} {id : Uuid} {row row' : ResponseAction}

theorem mem_of_lookup (h : api.actions.lookup id = some row) : (id, row) ∈ api.actions := by
  generalize api.actions = actions at h
  induction actions with
  | nil => cases h
  | cons p actions ih =>
      obtain ⟨k, v⟩ := p
      simp only [List.lookup_cons] at h
      by_cases hk : id = k
      · subst hk
        have hv : v = row := by simpa using h
        rw [hv]
        exact List.mem_cons_self
      · have hne : (id == k) = false := by simpa using hk
        rw [hne] at h
        exact List.mem_cons_of_mem _ (ih h)

theorem mem_save {p : Uuid × ResponseAction} (h : p ∈ (api.save id row).actions) :
    p = (id, row) ∨ p ∈ api.actions ∧ p.1 ≠ id := by
  obtain ⟨q, hq, rfl⟩ := List.mem_map.mp h
  by_cases hid : q.1 = id
  · rw [if_pos hid]
    exact .inl rfl
  · rw [if_neg hid]
    exact .inr ⟨hq, hid⟩

theorem save_mem (h : api.actions.lookup id = some row) :
    (id, row') ∈ (api.save id row').actions :=
  List.mem_map.mpr ⟨(id, row), mem_of_lookup h, by simp⟩

theorem DecidedBy.save {P : RoleName → Prop} (h : DecidedBy P api)
    (hrow : (id, row) ∈ api.actions) (hpursued : row.status.pursued = true)
    (happ : row'.approvedBy = row.approvedBy) (hprop : row'.proposedBy = row.proposedBy) :
    DecidedBy P (api.save id row') := by
  intro p hp hstatus
  rcases mem_save hp with rfl | ⟨hmem, _⟩
  · obtain ⟨approver, role, ha, hne, hrole⟩ := h (id, row) hrow hpursued
    exact ⟨approver, role, happ.trans ha, by rw [hprop]; exact hne, hrole⟩
  · exact h p hmem hstatus

end Rows

section Steps

variable {settings : Settings} {api api' : Api} {P : RoleName → Prop}

theorem proposeEndpoint_ok {token : Option Uuid} {incidentId id : Uuid}
    {payload : ResponseActionCreate} {incidentExists targetUserExists : Bool}
    {validRefs : List String} {now : Timestamp}
    (h : proposeEndpoint token incidentId payload incidentExists validRefs targetUserExists id now
      api = .ok api') :
    api' = api ∨ ∃ row, row.status = .proposed ∧ api.actions.lookup id = none ∧
      api' = { api with actions := (id, row) :: api.actions } := by
  unfold proposeEndpoint at h
  cases hactor : requirePermission .responsesPropose api token with
  | error e =>
      rw [hactor] at h
      cases h
  | ok actor =>
      rw [hactor] at h
      simp only [bind, Except.bind] at h
      split at h
      · cases h
      · cases h
        exact .inl rfl
      · rename_i row hrow
        have hnew := propose_new_status hrow
        cases hid : api.actions.lookup id with
        | some v =>
            rw [hid] at h
            cases h
        | none =>
            rw [hid] at h
            cases h
            exact .inr ⟨row, by rw [hnew]; rfl, rfl, rfl⟩

theorem decideEndpoint_ok {token : Option Uuid} {id : Uuid} {decision : String}
    {now : Timestamp} (h : decideEndpoint settings token id decision now api = .ok api') :
    ∃ actorId user action row, token = some actorId ∧ api.users actorId = some user ∧
      user.isActive = true ∧ .responsesApprove ∈ permissionsForRole user.roleName ∧
      (decision = "approve" ∨ decision = "reject") ∧ api.actions.lookup id = some action ∧
      ResponseActions.decide settings action actorId (decision = "approve") now = .ok row ∧
      api' = { api.save id row with
        decidedAs := Function.update api.decidedAs id (some user.roleName) } := by
  unfold decideEndpoint at h
  cases hactor : requirePermission .responsesApprove api token with
  | error e =>
      rw [hactor] at h
      cases h
  | ok actor =>
      obtain ⟨htoken, huser, hactive, hperm⟩ := requirePermission_ok hactor
      rw [hactor] at h
      simp only [bind, Except.bind] at h
      by_cases hdecision : decision ≠ "approve" ∧ decision ≠ "reject"
      · rw [if_pos hdecision] at h
        cases h
      · rw [if_neg hdecision] at h
        simp only [pure, Except.pure] at h
        cases haction : api.actions.lookup id with
        | none =>
            rw [haction] at h
            cases h
        | some action =>
            rw [haction] at h
            dsimp only at h
            split at h
            · cases h
            · rename_i row hrow
              cases h
              refine ⟨actor.1, actor.2, action, row, htoken, huser, hactive, hperm, ?_, rfl,
                hrow, rfl⟩
              by_cases ha : decision = "approve"
              · exact .inl ha
              · exact .inr (by simpa [ha] using hdecision)

theorem Approval.handle {request : Request} {id actorId : Uuid} {user : User}
    {row : ResponseAction} (h : Approval settings api request id actorId user row)
    (hperm : .responsesApprove ∈ permissionsForRole user.roleName) :
    ∃ row', row'.status = .approved ∧ api.step settings request = { api.save id row' with
      decidedAs := Function.update api.decidedAs id (some user.roleName) } := by
  obtain ⟨now, rfl⟩ := h.sent
  have hdecide := decide_ok_iff.mpr (⟨h.proposed, h.other, ?_, rfl⟩ :
    row.status = .proposed ∧ row.proposedBy ≠ actorId ∧
      ¬ (true = true ∧ row.actionType ≠ .revokeAppSessions ∧
        settings.awsResponseEnabled = false) ∧ _ = { row with
          status := if true then .approved else .rejected
          approvedBy := some actorId
          updatedAt := now })
  · refine ⟨{ row with status := .approved, approvedBy := some actorId, updatedAt := now }, rfl,
      ?_⟩
    simp only [Api.step, ResponseActions.handle, decideEndpoint,
      requirePermission_of h.known h.active hperm, bind, Except.bind, h.found]
    simp [hdecide, pure, Except.pure]
  · rintro ⟨_, htype, haws⟩
    rcases h.enabled with hr | he
    · exact htype hr
    · rw [haws] at he
      cases he

theorem executeOnce_cases (id : Uuid) (reads : EffectReads) (startedAt : Timestamp)
    (finishedAt : Option Timestamp) (api : Api) :
    executeOnce id reads startedAt finishedAt api = api ∨
      ∃ action row, api.actions.lookup id = some action ∧ action.status = .approved ∧
        row.approvedBy = action.approvedBy ∧ row.proposedBy = action.proposedBy ∧
        executeOnce id reads startedAt finishedAt api = api.save id row := by
  unfold executeOnce
  split
  · exact .inl rfl
  · rename_i action haction
    split
    · rename_i happroved
      have hstatus : action.status = .approved := by simpa [isApproved] using happroved
      cases finishedAt with
      | none =>
          exact .inr ⟨action, claimed startedAt action, haction, hstatus, rfl, rfl, rfl⟩
      | some now =>
          refine .inr ⟨action, finished (effectOutcome reads (claimed startedAt action)) now
            (claimed startedAt action), haction, hstatus, ?_, ?_, rfl⟩
          · cases effectOutcome reads (claimed startedAt action) <;> rfl
          · cases effectOutcome reads (claimed startedAt action) <;> rfl
    · exact .inl rfl

theorem decidedBy_decide {token : Option Uuid} {id : Uuid} {decision : String} {now : Timestamp}
    (h : DecidedBy P api)
    (hrole : ∀ id' actorId user row,
      Approval settings api (.decide token id decision now) id' actorId user row →
        .responsesApprove ∈ permissionsForRole user.roleName → P user.roleName)
    (hok : decideEndpoint settings token id decision now api = .ok api') : DecidedBy P api' := by
  obtain ⟨actorId, user, action, row, rfl, huser, hactive, hperm, hdecision, haction, hrow, rfl⟩ :=
    decideEndpoint_ok hok
  obtain ⟨hproposed, hother, henabled, hrow⟩ := decide_ok_iff.mp hrow
  intro p hp hstatus
  rcases mem_save hp with rfl | ⟨hmem, hne⟩
  · have happrove : decision = "approve" := by
      rcases hdecision with ha | rfl
      · exact ha
      · rw [hrow] at hstatus
        cases hstatus
    subst happrove
    have hpassed : Approval settings api (.decide (some actorId) id "approve" now) id actorId user
        action := by
      refine ⟨⟨now, rfl⟩, huser, hactive, haction, hproposed, hother, ?_⟩
      by_cases htype : action.actionType = .revokeAppSessions
      · exact .inl htype
      · exact .inr (by simpa [htype] using henabled)
    refine ⟨actorId, user.roleName, by rw [hrow], ?_, by simp, hrole _ _ _ _ hpassed hperm⟩
    rw [hrow]
    exact fun he => hother he.symm
  · obtain ⟨approver, role, ha, hn, hr, hP⟩ := h p hmem hstatus
    exact ⟨approver, role, ha, hn, by simpa [hne] using hr, hP⟩

theorem decidedBy_step (request : Request) (h : DecidedBy P api)
    (hrole : ∀ id actorId user row, Approval settings api request id actorId user row →
      .responsesApprove ∈ permissionsForRole user.roleName → P user.roleName) :
    DecidedBy P (api.step settings request) := by
  unfold Api.step
  split
  · rename_i api' hok
    cases request with
    | saveUser id user =>
        cases hok
        exact h
    | propose =>
        rcases proposeEndpoint_ok hok with rfl | ⟨row, hstatus, _, rfl⟩
        · exact h
        · intro p hp hpursued
          rcases List.mem_cons.mp hp with rfl | hmem
          · rw [hstatus] at hpursued
            cases hpursued
          · exact h p hmem hpursued
    | decide => exact decidedBy_decide h hrole hok
    | execute id reads startedAt finishedAt =>
        cases hok
        rcases executeOnce_cases id reads startedAt finishedAt api with
          he | ⟨action, row, haction, hstatus, happ, hprop, he⟩
        · rw [he]
          exact h
        · rw [he]
          exact h.save (mem_of_lookup haction) (by rw [hstatus]; rfl) happ hprop
  · exact h

end Steps

section Runs

variable (settings : Settings) (users : Uuid → Option User)

theorem separated_of_supervised (requests : List Request)
    (h : ∀ pre request, pre ++ [request] <+: requests →
      Supervised settings ((Api.start users).run settings pre) request) :
    Separated ((Api.start users).run settings requests) := by
  induction requests using List.reverseRecOn with
  | nil => exact fun p hp => absurd hp List.not_mem_nil
  | append_singleton requests request ih =>
      rw [Api.run_append]
      have hprev := ih fun pre r hpre => h pre r (hpre.trans (List.prefix_append _ _))
      refine decidedBy_step request hprev fun id actorId user row happ hperm => ?_
      have hrole := h requests request List.prefix_rfl id actorId user row happ
      rcases (approve_roles user.roleName).mp hperm with hadmin | hanalyst
      · exact hadmin
      · exact absurd hanalyst hrole

theorem supervised_of_separated {api : Api} {request : Request}
    (h : Separated (api.step settings request)) : Supervised settings api request := by
  intro id actorId user row happ hrole
  have hperm : Permission.responsesApprove ∈ permissionsForRole user.roleName :=
    (approve_roles _).mpr (.inr hrole)
  obtain ⟨row', hstatus, hstep⟩ := happ.handle hperm
  rw [hstep] at h
  have hmem : (id, row') ∈ (api.save id row').actions := save_mem happ.found
  obtain ⟨_, role, _, _, hdecided, rfl⟩ := h (id, row') hmem (by rw [hstatus]; rfl)
  have hanalyst : some user.roleName = some RoleName.admin := by simpa using hdecided
  rw [hrole] at hanalyst
  cases hanalyst

theorem separated_iff_supervised (requests : List Request) :
    (∀ pre, pre <+: requests → Separated ((Api.start users).run settings pre)) ↔
      ∀ pre request, pre ++ [request] <+: requests →
        Supervised settings ((Api.start users).run settings pre) request := by
  constructor
  · intro h pre request hpre
    have hsep := h (pre ++ [request]) hpre
    rw [Api.run_append] at hsep
    exact supervised_of_separated settings hsep
  · intro h pre hpre
    exact separated_of_supervised settings users pre fun pre' request hpre' =>
      h pre' request (hpre'.trans hpre)

def analystPair : List Request :=
  [.saveUser 1 (some ⟨true, .analyst⟩), .saveUser 2 (some ⟨true, .analyst⟩),
    .propose (some 1) 5
      ⟨.revokeAppSessions, "00000000-0000-0000-0000-000000000009", none,
        "Confirmed suspicious activity", "The user is signed out", ["incident:5"],
        "containment-001"⟩
      true ["incident:5"] true 7 0,
    .decide (some 2) 7 "approve" 1,
    .execute 7 ⟨true, .ok (), .error ""⟩ 2 (some 3)]

def analystPairApi : Api :=
  (Api.start fun _ => none).run {} analystPair

theorem analystPair_not_separated :
    (analystPairApi.actions.lookup 7).map (·.status) = some .succeeded ∧
      analystPairApi.decidedAs 7 = some .analyst ∧
      ¬ ∀ settings users requests, Separated ((Api.start users).run settings requests) := by
  have hstatus : (analystPairApi.actions.lookup 7).map (·.status) = some .succeeded := by decide
  have hrole : analystPairApi.decidedAs 7 = some .analyst := by decide
  refine ⟨hstatus, hrole, fun h => ?_⟩
  obtain ⟨row, hrow, hsucceeded⟩ := Option.map_eq_some_iff.mp hstatus
  obtain ⟨_, role, _, _, hadmin, rfl⟩ :=
    h {} (fun _ => none) analystPair (7, row) (mem_of_lookup hrow) (by rw [hsucceeded]; rfl)
  cases hrole.symm.trans hadmin

end Runs

end ResponseActions
