import AiSoc.Console.Sessions

namespace Console

open Transition Client

section Logouts

def LogoutFinal (tab : Tab) : Prop :=
  tab.history.loggedOut = true → tab.client.accessToken = none ∧
    ∀ delivery ∈ tab.client.received.drop tab.history.mark, delivery.2 = none

def Fresh (tab : Tab) (event : Event) : Prop :=
  Stale tab.history event → tab.history.loggedOut = false

instance (h : History) (event : Event) : Decidable (Stale h event) :=
  inferInstanceAs (Decidable (_ ∧ _))

instance (tab : Tab) (event : Event) : Decidable (Fresh tab event) :=
  inferInstanceAs (Decidable (_ → _))

structure Marked (tab : Tab) : Prop where
  mark : tab.history.mark ≤ tab.client.received.length
  final : LogoutFinal tab

variable {tab tab' : Tab} {c' : Client} {event : Event}

theorem marked_start : Marked .start :=
  ⟨Nat.le_refl _, fun h => absurd h Bool.false_ne_true⟩

theorem marked_of_speaks (h : Marked tab) (hfresh : Fresh tab event)
    (hspeaks : Speaks event tab.client c') {history : History}
    (hmark : history.mark = tab.history.mark)
    (hlogged : history.loggedOut = true → tab.history.loggedOut = true ∧
      (event.answer ≠ none → event.began tab.history ≠ tab.history.finished)) :
    Marked ⟨c', history⟩ := by
  cases hspeaks with
  | silent token received =>
      constructor
      · rw [hmark, received]
        exact h.mark
      · intro hout
        rw [hmark, token, received]
        exact h.final (hlogged hout).1
  | publishes session answer token received =>
      constructor
      · rw [hmark, received, List.length_append]
        exact Nat.le_trans h.mark (Nat.le_add_right _ _)
      · intro hout
        obtain ⟨hbefore, hother⟩ := hlogged hout
        have hnone : session = none := by
          cases hsession : session with
          | none => rfl
          | some signed =>
              have hanswer : event.answer ≠ none := by
                rcases answer with hempty | hanswer
                · rw [hempty] at hsession
                  cases hsession
                · rw [hanswer, hsession]
                  exact Option.some_ne_none signed
              have hfalse := hfresh ⟨hanswer, hother hanswer⟩
              rw [hbefore] at hfalse
              cases hfalse
        subst hnone
        refine ⟨token, ?_⟩
        intro delivery hdelivery
        rw [hmark, received, List.drop_append_of_le_length h.mark] at hdelivery
        rcases List.mem_append.mp hdelivery with hold | hnew
        · exact (h.final hbefore).2 delivery hold
        · obtain ⟨listener, _, hlistener⟩ := List.mem_map.mp hnew
          rw [← hlistener]

theorem still_out {h : History}
    (hout : (h.loggedOut && !(event.answer.isSome && decide (event.began h = h.finished))) = true) :
    h.loggedOut = true ∧ (event.answer ≠ none → event.began h ≠ h.finished) := by
  obtain ⟨hbefore, hold⟩ := Bool.and_eq_true_iff.mp hout
  refine ⟨hbefore, ?_⟩
  intro hanswer hbegan
  simp [Option.isSome_iff_ne_none.mpr hanswer, hbegan] at hold

theorem marked_logoutResponse {call : Nat} {response : Response}
    (hstep : step tab (.logoutResponse call response) = some tab') : Marked tab' := by
  obtain ⟨hclient, hhistory⟩ := client_of_step hstep
  have hmark : tab'.history.mark = tab'.client.received.length := by
    rw [hhistory]
    rfl
  constructor
  · exact Nat.le_of_eq hmark
  · intro _
    rw [hmark, List.drop_length]
    simp only [clientStep] at hclient
    split at hclient
    · have htoken : tab'.client.accessToken = none := by
        rw [← Option.some.inj hclient]
        rfl
      exact ⟨htoken, fun delivery hdelivery => absurd hdelivery List.not_mem_nil⟩
    · cases hclient

theorem marked_step (h : Marked tab) (hfresh : Fresh tab event)
    (hstep : step tab event = some tab') : Marked tab' := by
  obtain ⟨hclient, hhistory⟩ := client_of_step hstep
  have hspeaks := (effect_of_step hclient).speaks
  obtain ⟨c', history⟩ := tab'
  simp only at hhistory hspeaks
  cases event with
  | logoutResponse call response => exact marked_logoutResponse hstep
  | _ =>
      refine marked_of_speaks h hfresh hspeaks ?_ ?_
      · rw [hhistory]
        rfl
      · intro hout
        rw [hhistory] at hout
        exact still_out hout

theorem marked_of_run (h : Run step Fresh Tab.start tab) : Marked tab :=
  h.invariant (fun _ _ _ hmarked hfresh hstep => marked_step hmarked hfresh hstep) marked_start

theorem logout_final_while_fresh (h : Run step Fresh Tab.start tab) :
    SingleFlight tab.client ∧ SentAtMostTwice tab.client ∧ LogoutFinal tab := by
  have hany : Run step anyStep Tab.start tab := h.mono fun _ _ _ => trivial
  obtain ⟨hsingle, htwice⟩ := flights_of_run hany
  exact ⟨hsingle, htwice, (marked_of_run h).final⟩

def signedInAgain : List Event :=
  [.subscribe 0, .loginSession 0, .loginSent 0, .loginResponse 0 (.ok (some ⟨"first"⟩)),
    .refreshSession, .lockGranted 0, .apiRequest 0 ⟨true, true⟩, .logoutSession 0,
    .refreshResponse 0 (.ok (some ⟨"second"⟩)), .refreshFinally 0, .logoutResponse 0 (.ok none),
    .apiResponse 0 .unauthorized, .lockGranted 1, .refreshResponse 1 .unauthorized,
    .refreshFinally 1, .apiResume 0, .loginSession 1, .loginSent 1,
    .loginResponse 1 (.ok (some ⟨"third"⟩))]

theorem signed_in_again :
    ∃ tab, Run step Fresh Tab.start tab ∧ tab.client.accessToken = some "third" ∧
      tab.history.finished = 1 ∧ tab.history.loggedOut = false ∧
      (SingleFlight tab.client ∧ SentAtMostTwice tab.client ∧ LogoutFinal tab) := by
  have hrun : (execWhile step (fun tab event => decide (Fresh tab event)) Tab.start
      signedInAgain).any (fun tab => decide (tab.client.accessToken = some "third" ∧
        tab.history.finished = 1 ∧ tab.history.loggedOut = false)) = true := by
    decide
  obtain ⟨tab, hfresh, htab⟩ := run_of_execWhile_any hrun
  have hfresh : Run step Fresh Tab.start tab := hfresh.mono fun _ _ h => of_decide_eq_true h
  obtain ⟨htoken, hfinished, hin⟩ := of_decide_eq_true htab
  exact ⟨tab, hfresh, htoken, hfinished, hin, logout_final_while_fresh hfresh⟩

theorem not_final_of_stale (hlogout : tab.history.loggedOut = true)
    (hstale : Stale tab.history event) (hstep : step tab event = some tab') :
    ¬ LogoutFinal tab' := by
  obtain ⟨hclient, hhistory⟩ := client_of_step hstep
  obtain ⟨hanswer, hbegan⟩ := hstale
  have hlogout' : tab'.history.loggedOut = true := by
    rw [hhistory]
    cases event with
    | logoutResponse call response => rfl
    | _ => simp [observe, hlogout, hbegan]
  have htoken : tab'.client.accessToken = event.answer.map (·.accessToken) := by
    cases event with
    | refreshResponse refresh response =>
        simp only [clientStep] at hclient
        split at hclient
        · cases response with
          | ok session =>
              rw [← Option.some.inj hclient]
              rfl
          | unauthorized => exact absurd rfl hanswer
          | failed => exact absurd rfl hanswer
        · cases hclient
    | loginResponse call response =>
        simp only [clientStep] at hclient
        split at hclient
        · cases response with
          | ok session =>
              rw [← Option.some.inj hclient]
              rfl
          | unauthorized => exact absurd rfl hanswer
          | failed => exact absurd rfl hanswer
        · cases hclient
    | _ => exact absurd rfl hanswer
  intro hfinal
  obtain ⟨hnone, _⟩ := hfinal hlogout'
  rw [htoken] at hnone
  exact hanswer (Option.map_eq_none_iff.mp hnone)

def refreshedAfterLogout : List Event :=
  [.loginSession 0, .loginSent 0, .loginResponse 0 (.ok (some ⟨"first"⟩)), .refreshSession,
    .lockGranted 0, .logoutSession 0, .logoutResponse 0 (.ok none),
    .refreshResponse 0 (.ok (some ⟨"second"⟩))]

theorem refresh_signs_in_after_logout :
    ∃ tab, Run step anyStep Tab.start tab ∧ ¬ LogoutFinal tab := by
  have hrun : (execAll step Tab.start refreshedAfterLogout).any (fun tab =>
      tab.history.loggedOut && decide (tab.client.accessToken = some "second")) = true := by
    decide
  obtain ⟨tab, hrun, htab⟩ := run_of_execAll_any hrun
  obtain ⟨hlogout, htoken⟩ := Bool.and_eq_true_iff.mp htab
  refine ⟨tab, hrun, ?_⟩
  intro hfinal
  have hnone := (hfinal hlogout).1
  rw [of_decide_eq_true htoken] at hnone
  cases hnone

end Logouts

end Console
