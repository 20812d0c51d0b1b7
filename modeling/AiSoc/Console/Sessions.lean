import AiSoc.Console.Client

namespace Console

open Transition Client

section Flights

def RefreshPhase.active : RefreshPhase → Bool
  | .locked | .inFlight | .settled _ => true
  | .absent | .done _ => false

def Pending (c : Client) : Prop :=
  ∀ refresh, (c.refreshes refresh).active = true → c.refreshPromise = some refresh

def SingleFlight (c : Client) : Prop :=
  ∀ refresh other, c.refreshes refresh = .inFlight → c.refreshes other = .inFlight →
    refresh = other

variable {c c' : Client}

theorem pending_start : Pending .start :=
  fun _ h => absurd h Bool.false_ne_true

theorem Pending.single (h : Pending c) : SingleFlight c := by
  intro refresh other hrefresh hother
  have hfirst := h refresh (by rw [hrefresh]; rfl)
  have hsecond := h other (by rw [hother]; rfl)
  rw [hfirst] at hsecond
  exact Option.some.inj hsecond

theorem Pending.of_eq (h : Pending c) (hrefreshes : c'.refreshes = c.refreshes)
    (hpromise : c'.refreshPromise = c.refreshPromise) : Pending c' := by
  intro refresh hactive
  rw [hrefreshes] at hactive
  rw [hpromise]
  exact h refresh hactive

theorem Pending.setRefresh (h : Pending c) {refresh : Nat} (phase : RefreshPhase)
    (hactive : (c.refreshes refresh).active = true) : Pending (c.setRefresh refresh phase) := by
  intro other hother
  by_cases heq : other = refresh
  · rw [heq]
    exact h refresh hactive
  · refine h other ?_
    simpa [Client.setRefresh, heq] using hother

theorem pending_refreshSession (h : Pending c) : Pending c.refreshSession.1 := by
  unfold Client.refreshSession
  split
  · exact h
  · rename_i hnone
    intro refresh hactive
    by_cases heq : refresh = c.nextRefresh
    · rw [heq]
    · have hbefore : (c.refreshes refresh).active = true := by
        simpa [Client.setRefresh, heq] using hactive
      rw [h refresh hbefore] at hnone
      cases hnone

theorem pending_settleRefresh (h : Pending c) {refresh : Nat}
    (hflight : c.refreshes refresh = .inFlight) (response : Response) :
    Pending (c.settleRefresh refresh response) := by
  have hactive : (c.refreshes refresh).active = true := by
    rw [hflight]
    rfl
  cases response with
  | ok session => exact (h.of_eq rfl rfl : Pending (c.publishSession session)).setRefresh _ hactive
  | unauthorized => exact (h.of_eq rfl rfl : Pending (c.publishSession none)).setRefresh _ hactive
  | failed => exact h.setRefresh _ hactive

theorem pending_finally (h : Pending c) {refresh : Nat} {outcome : Outcome}
    (hsettled : c.refreshes refresh = .settled outcome) :
    Pending { c.setRefresh refresh (.done outcome) with refreshPromise := none } := by
  intro other hother
  by_cases heq : other = refresh
  · simp [Client.setRefresh, heq, RefreshPhase.active] at hother
  · have hbefore : (c.refreshes other).active = true := by
      simpa [Client.setRefresh, heq] using hother
    have hpromise := h refresh (by rw [hsettled]; rfl)
    rw [h other hbefore] at hpromise
    exact absurd (Option.some.inj hpromise) heq

end Flights

section Sends

def Request.isApi (call : Nat) : Request → Bool
  | .api other _ => other = call
  | _ => false

def apiSends (c : Client) (call : Nat) : Nat :=
  (c.sent.filter (Request.isApi call)).length

def ApiPhase.left : ApiPhase → Nat
  | .absent => 2
  | .first _ | .waiting _ => 1
  | .second | .finished => 0

def spent (c : Client) (call : Nat) : Nat :=
  apiSends c call + (c.requests call).left

def SentAtMostTwice (c : Client) : Prop :=
  ∀ call, apiSends c call ≤ 2

variable {c c' : Client}

def Thrifty (c c' : Client) : Prop :=
  ∀ call, spent c' call ≤ spent c call

theorem Thrifty.of_eq (hsent : c'.sent = c.sent) (hrequests : c'.requests = c.requests) :
    Thrifty c c' := by
  intro call
  have hspent : spent c' call = spent c call := by
    rw [spent, spent, apiSends, apiSends, hsent, hrequests]
  exact Nat.le_of_eq hspent

theorem thrifty_send (request : Request) (hrequest : ∀ call, request.isApi call = false) :
    Thrifty c (c.send request) := by
  intro call
  simp [spent, apiSends, Client.send, hrequest call]

theorem thrifty_setRequest {call : Nat} {phase : ApiPhase}
    (hleft : phase.left ≤ (c.requests call).left) : Thrifty c (c.setRequest call phase) := by
  intro other
  by_cases heq : other = call
  · rw [heq]
    simpa [spent, apiSends, Client.setRequest] using hleft
  · simp [spent, apiSends, Client.setRequest, heq]

theorem thrifty_sendApi {call : Nat} {token : Option String} {phase : ApiPhase}
    (hleft : phase.left + 1 ≤ (c.requests call).left) :
    Thrifty c ((c.send (.api call token)).setRequest call phase) := by
  intro other
  by_cases heq : other = call
  · rw [heq]
    simp only [spent, apiSends, Client.send, Client.setRequest, List.filter_append,
      List.length_append, Function.update_self]
    simp only [List.filter_cons, Request.isApi, decide_true, if_true, List.filter_nil,
      List.length_singleton]
    omega
  · have hne : call ≠ other := fun h => heq h.symm
    simp [spent, apiSends, Client.send, Client.setRequest, heq, Request.isApi, hne]

theorem Thrifty.trans {c'' : Client} (h : Thrifty c c') (h' : Thrifty c' c'') : Thrifty c c'' :=
  fun call => Nat.le_trans (h' call) (h call)

theorem thrifty_refreshSession : Thrifty c c.refreshSession.1 := by
  unfold Client.refreshSession
  split
  · exact .of_eq rfl rfl
  · exact .of_eq rfl rfl

end Sends

section Publications

variable {c c' : Client} {event : Event}

inductive Speaks (event : Event) (c c' : Client) : Prop where
  | silent (token : c'.accessToken = c.accessToken) (received : c'.received = c.received)
  | publishes (session : Option Session) (answer : session = none ∨ event.answer = session)
      (token : c'.accessToken = session.map (·.accessToken))
      (received : c'.received =
        c.received ++ c.sessionListeners.map fun listener => (listener, session))

end Publications

section Steps

variable {c c' : Client} {event : Event}

structure Effect (event : Event) (c c' : Client) : Prop where
  pending : Pending c → Pending c'
  thrifty : Thrifty c c'
  speaks : Speaks event c c'

theorem effect_of_eq (hrefreshes : c'.refreshes = c.refreshes)
    (hpromise : c'.refreshPromise = c.refreshPromise) (hsent : c'.sent = c.sent)
    (hrequests : c'.requests = c.requests) (hspeaks : Speaks event c c') : Effect event c c' :=
  ⟨fun h => h.of_eq hrefreshes hpromise, .of_eq hsent hrequests, hspeaks⟩

theorem silent_refreshSession : Speaks event c c.refreshSession.1 := by
  unfold Client.refreshSession
  split
  · exact .silent rfl rfl
  · exact .silent rfl rfl

theorem requests_refreshSession : c.refreshSession.1.requests = c.requests := by
  unfold Client.refreshSession
  split
  · rfl
  · rfl

theorem effect_handleResponse {call : Nat} {options : RequestOptions}
    (hphase : c.requests call = .first options) (response : Response) :
    Effect event c (c.handleResponse call options response) := by
  have hfinish : Effect event c (c.setRequest call .finished) :=
    ⟨fun h => h.of_eq rfl rfl, thrifty_setRequest (Nat.zero_le _), .silent rfl rfl⟩
  cases response with
  | ok session => exact hfinish
  | failed => exact hfinish
  | unauthorized =>
      simp only [Client.handleResponse]
      split
      · have hleft : (ApiPhase.waiting c.refreshSession.2).left ≤
            (c.refreshSession.1.requests call).left := by
          rw [requests_refreshSession, hphase]
          exact Nat.le_refl 1
        have hspeaks : Speaks event c c.refreshSession.1 := silent_refreshSession
        refine ⟨fun h => (pending_refreshSession h).of_eq rfl rfl,
          thrifty_refreshSession.trans (thrifty_setRequest hleft), ?_⟩
        cases hspeaks with
        | silent token received => exact .silent token received
        | publishes session answer token received => exact .publishes session answer token received
      · exact hfinish

theorem effect_settleRefresh {refresh : Nat} (hflight : c.refreshes refresh = .inFlight)
    (response : Response) :
    Effect (.refreshResponse refresh response) c (c.settleRefresh refresh response) := by
  refine ⟨fun h => pending_settleRefresh h hflight response, ?_, ?_⟩
  · cases response with
    | ok session => exact .of_eq rfl rfl
    | unauthorized => exact .of_eq rfl rfl
    | failed => exact .of_eq rfl rfl
  · cases response with
    | ok session => exact .publishes session (.inr rfl) rfl rfl
    | unauthorized => exact .publishes none (.inl rfl) rfl rfl
    | failed => exact .silent rfl rfl

theorem effect_finishLogin {call : Nat} (response : Response) :
    Effect (.loginResponse call response) c (c.finishLogin call response) := by
  cases response with
  | ok session => exact effect_of_eq rfl rfl rfl rfl (.publishes session (.inr rfl) rfl rfl)
  | unauthorized => exact effect_of_eq rfl rfl rfl rfl (.silent rfl rfl)
  | failed => exact effect_of_eq rfl rfl rfl rfl (.silent rfl rfl)

theorem effect_of_step (hstep : clientStep c event = some c') : Effect event c c' := by
  cases event with
  | apiRequest call options =>
      simp only [clientStep] at hstep
      split at hstep
      · rename_i habsent
        cases hstep
        have hleft : (ApiPhase.first options).left + 1 ≤ (c.requests call).left := by
          rw [habsent]
          exact Nat.le_refl 2
        exact ⟨fun h => h.of_eq rfl rfl, thrifty_sendApi hleft, .silent rfl rfl⟩
      · cases hstep
  | apiResponse call response =>
      simp only [clientStep] at hstep
      split at hstep
      · rename_i hphase
        cases hstep
        exact effect_handleResponse hphase response
      · cases hstep
        exact ⟨fun h => h.of_eq rfl rfl, thrifty_setRequest (Nat.zero_le _), .silent rfl rfl⟩
      · cases hstep
  | apiResume call =>
      simp only [clientStep] at hstep
      split at hstep
      · rename_i hwaiting
        split at hstep
        · cases hstep
          have hleft : ApiPhase.second.left + 1 ≤ (c.requests call).left := by
            rw [hwaiting]
            exact Nat.le_refl 1
          exact ⟨fun h => h.of_eq rfl rfl, thrifty_sendApi hleft, .silent rfl rfl⟩
        · cases hstep
          exact ⟨fun h => h.of_eq rfl rfl, thrifty_setRequest (Nat.zero_le _), .silent rfl rfl⟩
        · cases hstep
      · cases hstep
  | refreshSession =>
      cases hstep
      exact ⟨pending_refreshSession, thrifty_refreshSession, silent_refreshSession⟩
  | lockGranted refresh =>
      simp only [clientStep] at hstep
      split at hstep
      · rename_i hlocked
        cases hstep
        have hactive : (c.refreshes refresh).active = true := by
          rw [hlocked]
          rfl
        refine ⟨fun h => ?_, (thrifty_send (.refresh refresh) fun _ => rfl).trans (.of_eq rfl rfl),
          .silent rfl rfl⟩
        exact (h.of_eq rfl rfl : Pending (c.send (.refresh refresh))).setRefresh _ hactive
      · cases hstep
  | lockRefused refresh =>
      simp only [clientStep] at hstep
      split at hstep
      · rename_i hlocked
        cases hstep
        have hactive : (c.refreshes refresh).active = true := by
          rw [hlocked]
          rfl
        exact ⟨fun h => h.setRefresh _ hactive, .of_eq rfl rfl, .silent rfl rfl⟩
      · cases hstep
  | refreshResponse refresh response =>
      simp only [clientStep] at hstep
      split at hstep
      · rename_i hflight
        cases hstep
        exact effect_settleRefresh hflight response
      · cases hstep
  | refreshFinally refresh =>
      simp only [clientStep] at hstep
      split at hstep
      · rename_i hsettled
        cases hstep
        exact ⟨fun h => pending_finally h hsettled, .of_eq rfl rfl, .silent rfl rfl⟩
      · cases hstep
  | loginSession call =>
      simp only [clientStep] at hstep
      split at hstep
      · cases hstep
        exact effect_of_eq rfl rfl rfl rfl (.silent rfl rfl)
      · cases hstep
  | loginSent call =>
      simp only [clientStep] at hstep
      split at hstep
      · cases hstep
        exact ⟨fun h => h.of_eq rfl rfl,
          (thrifty_send (.login call) fun _ => rfl).trans (.of_eq rfl rfl), .silent rfl rfl⟩
      · cases hstep
  | loginResponse call response =>
      simp only [clientStep] at hstep
      split at hstep
      · cases hstep
        exact effect_finishLogin response
      · cases hstep
  | logoutSession call =>
      simp only [clientStep] at hstep
      split at hstep
      · cases hstep
        exact ⟨fun h => h.of_eq rfl rfl,
          (thrifty_send (.logout call) fun _ => rfl).trans (.of_eq rfl rfl), .silent rfl rfl⟩
      · cases hstep
  | logoutResponse call response =>
      simp only [clientStep] at hstep
      split at hstep
      · cases hstep
        exact effect_of_eq rfl rfl rfl rfl (.publishes none (.inl rfl) rfl rfl)
      · cases hstep
  | clearAccessToken =>
      cases hstep
      exact effect_of_eq rfl rfl rfl rfl (.publishes none (.inl rfl) rfl rfl)
  | subscribe listener =>
      simp only [clientStep] at hstep
      split at hstep
      · cases hstep
        exact effect_of_eq rfl rfl rfl rfl (.silent rfl rfl)
      · cases hstep
        exact effect_of_eq rfl rfl rfl rfl (.silent rfl rfl)
  | unsubscribe listener =>
      cases hstep
      exact effect_of_eq rfl rfl rfl rfl (.silent rfl rfl)

end Steps

section Runs

variable {tab tab' : Tab} {event : Event}

theorem client_of_step (hstep : step tab event = some tab') :
    clientStep tab.client event = some tab'.client ∧
      tab'.history = observe tab.history event tab.client tab'.client := by
  obtain ⟨c, hclient, htab⟩ := Option.map_eq_some_iff.mp hstep
  subst htab
  exact ⟨hclient, rfl⟩

theorem pending_of_run (h : Run step anyStep Tab.start tab) : Pending tab.client := by
  refine h.invariant (P := fun tab => Pending tab.client) ?_ pending_start
  intro before event after hpending _ hstep
  exact (effect_of_step (client_of_step hstep).1).pending hpending

theorem spent_of_run (call : Nat) (h : Run step anyStep Tab.start tab) :
    spent tab.client call ≤ 2 := by
  refine h.invariant (P := fun tab => spent tab.client call ≤ 2) ?_ ?_
  · intro before event after hspent _ hstep
    exact Nat.le_trans ((effect_of_step (client_of_step hstep).1).thrifty call) hspent
  · exact Nat.le_refl 2

theorem flights_of_run (h : Run step anyStep Tab.start tab) :
    SingleFlight tab.client ∧ SentAtMostTwice tab.client := by
  refine ⟨(pending_of_run h).single, fun call => ?_⟩
  exact Nat.le_trans (Nat.le_add_right _ _) (spent_of_run call h)

end Runs

end Console
