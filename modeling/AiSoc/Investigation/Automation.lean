import AiSoc.Library.Counters
import AiSoc.Library.PyText
import AiSoc.Library.Transition

namespace Automation

open Counters Transition
open PyJson (PyText asciiText)

section Policy

abbrev Uuid : Type := Nat

structure Settings where
  automaticInvestigationsEnabled : Bool
  automaticInvestigationMinSeverity : String
  automaticInvestigationCooldownSeconds : Nat
  cooldown_ge : 60 ≤ automaticInvestigationCooldownSeconds
  investigationQueueKey : String

structure Incident where
  id : Uuid
  status : String
  severity : String

def severityRank : List (String × Nat) :=
  [("low", 1), ("medium", 2), ("high", 3), ("critical", 4)]

variable (text : PyText) (settings : Settings)

def shouldTrigger (incident : Incident) : Bool :=
  if !settings.automaticInvestigationsEnabled then false
  else if incident.status ∉ ["open", "investigating"] then false
  else
    let minimum :=
      (severityRank.lookup (text.lower settings.automaticInvestigationMinSeverity)).getD 4
    minimum ≤ (severityRank.lookup (text.lower incident.severity)).getD 0

def cooldownKey (incidentId : Uuid) : String :=
  settings.investigationQueueKey ++ ":automatic:" ++ PyStr.uuidText incidentId

-- the clock counts milliseconds
def cooldown : Nat :=
  1000 * settings.automaticInvestigationCooldownSeconds

end Policy

section Dispatchers

-- a raised request gives its claim up by one DEL
inductive Outcome where
  | pending
  | returned
  | raised
  | deleted
  deriving DecidableEq

structure Request where
  dispatcher : Nat
  incident : Incident
  startedAt : Nat
  outcome : Outcome

-- the await that a dispatch stands at
inductive Phase where
  | claiming (incidents : List Incident)
  | requesting (request : Nat) (incident : Incident) (incidents : List Incident)
  | deleting (request : Nat) (incident : Incident) (incidents : List Incident)
  | stopped

-- a command may raise before or after Redis has run it
inductive Reply where
  | answered
  | lost
  | unreachable
  deriving DecidableEq

structure State where
  redis : Db
  dispatchers : List Phase
  requests : List Request

inductive Step where
  | dispatch (incidents : List Incident)
  | claim (i : Nat) (reply : Reply)
  | finish (i : Nat) (raised : Bool)
  | delete (i : Nat) (reply : Reply)
  | crash (i : Nat)
  | tick (millis : Nat)

variable (text : PyText) (settings : Settings)

-- the loop goes on to the next incident of the policy
def next : List Incident → Option (Incident × List Incident)
  | [] => none
  | incident :: incidents =>
      if shouldTrigger text settings incident then some (incident, incidents) else next incidents

def State.move (s : State) (i : Nat) (phase : Phase) : State :=
  { s with dispatchers := s.dispatchers.set i phase }

def State.settle (s : State) (n : Nat) (outcome : Outcome) : State :=
  { s with requests := s.requests.modify n fun request => { request with outcome } }

def State.claim (s : State) (incident : Incident) : State × Bool :=
  let (redis, claimed) := s.redis.setNx (cooldownKey settings incident.id) (cooldown settings)
  ({ s with redis }, claimed)

def State.delete (s : State) (n : Nat) (incident : Incident) : State :=
  { s.settle n .deleted with redis := s.redis.delete (cooldownKey settings incident.id) }

def State.begin (s : State) (i : Nat) (incident : Incident) : State :=
  { s with requests := s.requests ++ [⟨i, incident, s.redis.now, .pending⟩] }

def claimed (s : State) (i : Nat) (reply : Reply) : Phase → Option State
  | .claiming incidents =>
      match next text settings incidents with
      | none => some (s.move i .stopped)
      | some (incident, rest) =>
          match reply with
          | .unreachable => some (s.move i .stopped)
          | .lost => some ((s.claim settings incident).1.move i .stopped)
          | .answered =>
              match s.claim settings incident with
              | (s, false) => some (s.move i (.claiming rest))
              | (s, true) =>
                  some ((s.begin i incident).move i (.requesting s.requests.length incident rest))
  | _ => none

-- request_investigation returned or raised
def finished (s : State) (i : Nat) (raised : Bool) : Phase → Option State
  | .requesting n incident incidents =>
      if raised then some ((s.settle n .raised).move i (.deleting n incident incidents))
      else some ((s.settle n .returned).move i (.claiming incidents))
  | _ => none

def deleted (s : State) (i : Nat) (reply : Reply) : Phase → Option State
  | .deleting n incident incidents =>
      match reply with
      | .unreachable => some (s.move i .stopped)
      | .lost => some ((s.delete settings n incident).move i .stopped)
      | .answered => some ((s.delete settings n incident).move i (.claiming incidents))
  | _ => none

def step (s : State) : Step → Option State
  | .dispatch incidents => some { s with dispatchers := s.dispatchers ++ [.claiming incidents] }
  | .claim i reply => s.dispatchers[i]?.bind (claimed text settings s i reply)
  | .finish i raised => s.dispatchers[i]?.bind (finished s i raised)
  | .delete i reply => s.dispatchers[i]?.bind (deleted settings s i reply)
  | .crash i => s.dispatchers[i]?.map fun _ => s.move i .stopped
  | .tick millis => some { s with redis := s.redis.tick millis }

def initial (redis : Db) : State :=
  ⟨redis, [], []⟩

def inTime (s : State) : Step → Bool
  | .delete i reply =>
      match s.dispatchers[i]? with
      | some (.deleting n _ _) =>
          reply = .unreachable ||
            s.requests[n]?.all fun request => s.redis.now < request.startedAt + cooldown settings
      | _ => true
  | _ => true

end Dispatchers

section Invariant

variable {text : PyText} {settings : Settings} {s s' : State} {i n : Nat} {phase : Phase} {reply : Reply}

theorem shouldTrigger_of_next {incidents rest : List Incident} {incident : Incident}
    (h : next text settings incidents = some (incident, rest)) : shouldTrigger text settings incident = true := by
  induction incidents with
  | nil => cases h
  | cons head tail ih =>
      rw [next] at h
      split at h
      · rename_i htrigger
        cases h
        exact htrigger
      · exact ih h

def Request.key (settings : Settings) (request : Request) : String :=
  cooldownKey settings request.incident.id

def Request.expiry (settings : Settings) (request : Request) : Nat :=
  request.startedAt + cooldown settings

def Phase.owns : Phase → Option (Nat × Incident × Outcome)
  | .requesting n incident _ => some (n, incident, .pending)
  | .deleting n incident _ => some (n, incident, .raised)
  | _ => none

def Owned (s : State) (i : Nat) (phase : Phase) : Prop :=
  ∀ n incident outcome, phase.owns = some (n, incident, outcome) →
    ∃ request, s.requests[n]? = some request ∧ request.dispatcher = i ∧
      request.incident = incident ∧ request.outcome = outcome

structure Inv (text : PyText) (settings : Settings) (s : State) : Prop where
  owned : ∀ (i : Nat) (phase : Phase), s.dispatchers[i]? = some phase → Owned s i phase
  triggered : ∀ (n : Nat) (request : Request), s.requests[n]? = some request →
    shouldTrigger text settings request.incident = true
  past : ∀ (n : Nat) (request : Request), s.requests[n]? = some request → request.startedAt ≤ s.redis.now
  held : ∀ (n : Nat) (request : Request), s.requests[n]? = some request → request.outcome ≠ .deleted →
    s.redis.now < request.expiry settings →
    s.redis.live (request.key settings) = some ⟨1, some (request.expiry settings)⟩
  apart : ∀ (m n : Nat) (a b : Request), m < n → s.requests[m]? = some a → s.requests[n]? = some b →
    a.key settings = b.key settings → a.outcome ≠ .deleted → a.expiry settings ≤ b.startedAt

theorem inv_initial (redis : Db) : Inv text settings (initial redis) where
  owned := fun _ _ h => by cases h
  triggered := fun _ _ h => by cases h
  past := fun _ _ h => by cases h
  held := fun _ _ h => by cases h
  apart := fun _ _ _ _ _ h => by cases h

theorem owned_of_none (h : phase.owns = none) : Owned s i phase := by
  intro n incident outcome howns
  rw [h] at howns
  cases howns

theorem dispatchers_move {j : Nat} {other : Phase}
    (h : (s.move i phase).dispatchers[j]? = some other) :
    (j = i ∧ other = phase) ∨ (j ≠ i ∧ s.dispatchers[j]? = some other) := by
  rcases eq_or_ne j i with rfl | hj
  · simp only [State.move] at h
    rw [List.getElem?_set_self'] at h
    obtain ⟨_, _, rfl⟩ := Option.map_eq_some_iff.mp h
    exact Or.inl ⟨rfl, rfl⟩
  · simp only [State.move] at h
    rw [List.getElem?_set_ne hj.symm] at h
    exact Or.inr ⟨hj, h⟩

theorem inv_move (h : Inv text settings s) (howned : Owned s i phase) :
    Inv text settings (s.move i phase) := by
  refine ⟨?_, h.triggered, h.past, h.held, h.apart⟩
  intro j other hj
  rcases dispatchers_move hj with ⟨rfl, rfl⟩ | ⟨_, hother⟩
  · exact howned
  · exact h.owned j other hother

theorem requests_settle {outcome : Outcome} (m : Nat) : (s.settle n outcome).requests[m]? =
    (s.requests[m]?).map fun request => if n = m then { request with outcome } else request :=
  List.getElem?_modify _ n s.requests m

theorem settled {outcome : Outcome} {request : Request} (h : s.requests[n]? = some request) :
    (s.settle n outcome).requests[n]? = some { request with outcome } := by
  rw [requests_settle, h, Option.map_some, if_pos rfl]

theorem unsettled {outcome : Outcome} {m : Nat} (h : m ≠ n) :
    (s.settle n outcome).requests[m]? = s.requests[m]? := by
  simp only [requests_settle, if_neg h.symm, Option.map_id']

theorem of_settle {outcome : Outcome} {m : Nat} {request : Request}
    (h : (s.settle n outcome).requests[m]? = some request) :
    ∃ old, s.requests[m]? = some old ∧ request.incident = old.incident ∧
      request.startedAt = old.startedAt ∧ (m ≠ n → request = old) := by
  rcases eq_or_ne m n with rfl | hne
  · rw [requests_settle] at h
    obtain ⟨old, hold, hrequest⟩ := Option.map_eq_some_iff.mp h
    rw [if_pos rfl] at hrequest
    subst hrequest
    exact ⟨old, hold, rfl, rfl, fun hne => absurd rfl hne⟩
  · rw [unsettled hne] at h
    exact ⟨request, h, rfl, rfl, fun _ => rfl⟩

theorem inv_settle (h : Inv text settings s) {outcome : Outcome} {request : Request}
    (hn : s.requests[n]? = some request) (hi : request.dispatcher = i)
    (hkept : request.outcome ≠ .deleted)
    (howned : Owned (s.settle n outcome) i phase) :
    Inv text settings ((s.settle n outcome).move i phase) := by
  have hold : ∀ (m : Nat) (new : Request), (s.settle n outcome).requests[m]? = some new →
      ∃ old : Request, s.requests[m]? = some old ∧ new.incident = old.incident ∧
        new.startedAt = old.startedAt ∧ (new.outcome ≠ .deleted → old.outcome ≠ .deleted) := by
    intro m new hm
    obtain ⟨old, holdm, hincident, hstarted, hsame⟩ := of_settle hm
    refine ⟨old, holdm, hincident, hstarted, fun hnew => ?_⟩
    rcases eq_or_ne m n with rfl | hne
    · rw [hn] at holdm
      cases holdm
      exact hkept
    · exact hsame hne ▸ hnew
  refine ⟨?_, ?_, ?_, ?_, ?_⟩
  · intro j other hj
    rcases dispatchers_move hj with ⟨rfl, rfl⟩ | ⟨hne, hother⟩
    · exact howned
    · intro m incident outcome' howns
      obtain ⟨owner, hm, hdispatcher, hincident, houtcome⟩ :=
        h.owned j other hother m incident outcome' howns
      have hmn : m ≠ n := by
        rintro rfl
        rw [hn] at hm
        cases hm
        exact hne (hdispatcher.symm.trans hi)
      exact ⟨owner, (unsettled hmn).trans hm, hdispatcher, hincident, houtcome⟩
  · intro m new hm
    obtain ⟨old, holdm, hincident, _, _⟩ := hold m new hm
    rw [hincident]
    exact h.triggered m old holdm
  · intro m new hm
    obtain ⟨old, holdm, _, hstarted, _⟩ := hold m new hm
    rw [hstarted]
    exact h.past m old holdm
  · intro m new hm hnew hexpiry
    obtain ⟨old, holdm, hincident, hstarted, hkeeps⟩ := hold m new hm
    have hkey : new.key settings = old.key settings := by rw [Request.key, hincident, Request.key]
    have hend : new.expiry settings = old.expiry settings := by
      rw [Request.expiry, hstarted, Request.expiry]
    rw [hkey, hend]
    exact h.held m old holdm (hkeeps hnew) (hend ▸ hexpiry)
  · intro k m a b hkm ha hb hsame hnew
    obtain ⟨oldA, holdA, hincidentA, hstartedA, hkeeps⟩ := hold k a ha
    obtain ⟨oldB, holdB, hincidentB, hstartedB, _⟩ := hold m b hb
    rw [Request.key, Request.key, hincidentA, hincidentB] at hsame
    rw [Request.expiry, hstartedA, hstartedB]
    exact h.apart k m oldA oldB hkm holdA holdB hsame (hkeeps hnew)

theorem inv_deleteKey (h : Inv text settings s) {key : String}
    (hfree : ∀ (n : Nat) (request : Request), s.requests[n]? = some request →
      request.key settings = key → request.outcome ≠ .deleted →
      request.expiry settings ≤ s.redis.now) :
    Inv text settings { s with redis := s.redis.delete key } := by
  refine ⟨h.owned, h.triggered, h.past, ?_, h.apart⟩
  intro n request hn hkept hunexpired
  have hne : request.key settings ≠ key := fun hkey =>
    Nat.not_lt.mpr (hfree n request hn hkey hkept) hunexpired
  rw [live_delete_of_ne hne]
  exact h.held n request hn hkept hunexpired

theorem inv_delete (h : Inv text settings s) {incident : Incident} {request : Request}
    (hn : s.requests[n]? = some request) (hi : request.dispatcher = i)
    (hincident : request.incident = incident) (hraised : request.outcome = .raised)
    (hintime : s.redis.now < request.expiry settings) (hnone : phase.owns = none) :
    Inv text settings ((s.delete settings n incident).move i phase) := by
  have hkept : request.outcome ≠ .deleted := by
    rw [hraised]
    exact fun heq => by cases heq
  have hsettled : Inv text settings ((s.settle n .deleted).move i phase) :=
    inv_settle h hn hi hkept (owned_of_none hnone)
  refine inv_deleteKey (s := (s.settle n .deleted).move i phase) hsettled ?_
  intro m other hm hkey hother
  obtain ⟨old, hold, hsame, hstarted, heq⟩ := of_settle hm
  have hmn : m ≠ n := by
    rintro rfl
    rw [State.move, settled hn] at hm
    cases hm
    exact hother rfl
  have hother' : other = old := heq hmn
  subst hother'
  have hkeys : other.key settings = request.key settings := by
    rw [hkey, ← hincident, Request.key]
  rcases Nat.lt_or_gt_of_ne hmn with hlt | hgt
  · exact (h.apart m n other request hlt hold hn hkeys hother).trans (h.past n request hn)
  · have hlater : request.expiry settings ≤ other.startedAt :=
      h.apart n m request other hgt hn hold hkeys.symm hkept
    exact absurd (hlater.trans (h.past m other hold)) (Nat.not_le.mpr hintime)

theorem inv_setKey (h : Inv text settings s) (key : String) (millis : Nat) :
    Inv text settings { s with redis := (s.redis.setNx key millis).1 } := by
  refine ⟨h.owned, h.triggered, ?_, ?_, h.apart⟩
  · intro n request hn
    rw [now_setNx]
    exact h.past n request hn
  · intro n request hn hkept hunexpired
    rw [now_setNx] at hunexpired
    exact live_setNx (h.held n request hn hkept hunexpired)

theorem cooldown_pos : 0 < cooldown settings := by
  have hge := settings.cooldown_ge
  rw [cooldown]
  omega

theorem live_claimed {db : Db} {key : String} (h : db.live key = none) :
    (db.setNx key (cooldown settings)).1.live key = some ⟨1, some (db.now + cooldown settings)⟩ := by
  have hlater : ¬ db.now + cooldown settings ≤ db.now := by
    have hpos : 0 < cooldown settings := cooldown_pos
    omega
  rw [setNx_of_none h, live_put_self, Option.filter_eq_some_iff]
  refine ⟨rfl, ?_⟩
  simp [Counter.isLive, hlater]

theorem inv_begin (h : Inv text settings s) {incident : Incident} {rest : List Incident}
    (htrigger : shouldTrigger text settings incident = true)
    (hfree : s.redis.live (cooldownKey settings incident.id) = none) :
    Inv text settings (((s.claim settings incident).1.begin i incident).move i
      (.requesting s.requests.length incident rest)) := by
  have hclaimed : Inv text settings (s.claim settings incident).1 := inv_setKey h _ _
  have hnow : (s.claim settings incident).1.redis.now = s.redis.now := now_setNx
  have hnew : ∀ (m : Nat) (request : Request),
      (s.requests ++ [⟨i, incident, s.redis.now, .pending⟩])[m]? = some request →
      s.requests[m]? = some request ∨
        (m = s.requests.length ∧ request = ⟨i, incident, s.redis.now, .pending⟩) := by
    intro m request hm
    rcases Nat.lt_or_ge m s.requests.length with hlt | hge
    · rw [List.getElem?_append_left hlt] at hm
      exact Or.inl hm
    · rw [List.getElem?_append_right hge, List.getElem?_singleton] at hm
      split at hm
      · cases hm
        exact Or.inr ⟨by omega, rfl⟩
      · cases hm
  have hrequests : ((s.claim settings incident).1.begin i incident).requests =
      s.requests ++ [⟨i, incident, s.redis.now, .pending⟩] := by
    rw [State.begin, hnow]
    rfl
  refine ⟨?_, ?_, ?_, ?_, ?_⟩
  · intro j other hj
    rcases dispatchers_move hj with ⟨rfl, rfl⟩ | ⟨_, hother⟩
    · intro m owned outcome howns
      cases howns
      refine ⟨⟨j, incident, s.redis.now, .pending⟩, ?_, rfl, rfl, rfl⟩
      rw [State.move, hrequests, List.getElem?_concat_length]
    · intro m owned outcome howns
      obtain ⟨request, hm, hfacts⟩ := h.owned j other hother m owned outcome howns
      refine ⟨request, ?_, hfacts⟩
      rw [State.move, hrequests, List.getElem?_append_left (List.getElem?_eq_some_iff.mp hm).1, hm]
  · intro m request hm
    rw [State.move, hrequests] at hm
    rcases hnew m request hm with hold | ⟨_, rfl⟩
    · exact h.triggered m request hold
    · exact htrigger
  · intro m request hm
    rw [State.move, hrequests] at hm
    rcases hnew m request hm with hold | ⟨_, rfl⟩
    · exact hclaimed.past m request hold
    · exact hnow.ge
  · intro m request hm hkept hunexpired
    rw [State.move, hrequests] at hm
    rcases hnew m request hm with hold | ⟨_, rfl⟩
    · exact hclaimed.held m request hold hkept hunexpired
    · exact live_claimed hfree
  · intro k m a b hkm ha hb hkeys hkept
    rw [State.move, hrequests] at ha hb
    rcases hnew m b hb with holdB | ⟨rfl, rfl⟩
    · have hmlt := (List.getElem?_eq_some_iff.mp holdB).1
      rw [List.getElem?_append_left (hkm.trans hmlt)] at ha
      exact h.apart k m a b hkm ha holdB hkeys hkept
    · rw [List.getElem?_append_left hkm] at ha
      by_contra hlate
      have hlive := h.held k a ha hkept (Nat.not_le.mp hlate)
      rw [hkeys] at hlive
      exact absurd (hfree.symm.trans hlive) (fun heq => by cases heq)

theorem inv_tick (h : Inv text settings s) (millis : Nat) :
    Inv text settings { s with redis := s.redis.tick millis } := by
  refine ⟨h.owned, h.triggered, ?_, ?_, h.apart⟩
  · intro n request hn
    exact (h.past n request hn).trans (Nat.le_add_right _ millis)
  · intro n request hn hkept hunexpired
    have hbefore : s.redis.now < request.expiry settings :=
      Nat.lt_of_le_of_lt (Nat.le_add_right _ millis) hunexpired
    refine live_tick (h.held n request hn hkept hbefore) ?_
    have hlater : ¬ request.expiry settings ≤ s.redis.now + millis := Nat.not_le.mpr hunexpired
    simp [Counter.isLive, hlater]

theorem inv_claimed (h : Inv text settings s) {before : Phase} (hbefore : s.dispatchers[i]? = some before)
    (hs : claimed text settings s i reply before = some s') : Inv text settings s' := by
  have hstop : Inv text settings (s.move i .stopped) := inv_move h (owned_of_none rfl)
  unfold claimed at hs
  split at hs
  · rename_i incidents
    split at hs
    · cases hs
      exact hstop
    · rename_i incident rest hnext
      split at hs
      · cases hs
        exact hstop
      · cases hs
        exact inv_move (inv_setKey h _ _) (owned_of_none rfl)
      · cases hfree : s.redis.live (cooldownKey settings incident.id) with
        | none =>
            have hclaim : s.claim settings incident = ((s.claim settings incident).1, true) := by
              rw [State.claim, setNx_of_none hfree]
            rw [hclaim] at hs
            cases hs
            exact inv_begin h (shouldTrigger_of_next hnext) hfree
        | some counter =>
            have hclaim : s.claim settings incident = (s, false) := by
              rw [State.claim, setNx_of_some hfree]
            rw [hclaim] at hs
            cases hs
            exact inv_move h (owned_of_none rfl)
  · cases hs

theorem inv_finished (h : Inv text settings s) {before : Phase} {raised : Bool}
    (hbefore : s.dispatchers[i]? = some before) (hs : finished s i raised before = some s') :
    Inv text settings s' := by
  unfold finished at hs
  split at hs
  · rename_i n incident incidents
    obtain ⟨request, hn, hi, hincident, hpending⟩ := h.owned i _ hbefore n incident .pending rfl
    have hkept : request.outcome ≠ .deleted := by
      rw [hpending]
      exact fun heq => by cases heq
    split at hs
    · cases hs
      refine inv_settle h hn hi hkept ?_
      intro m other outcome howns
      cases howns
      exact ⟨{ request with outcome := .raised }, settled hn, hi, hincident, rfl⟩
    · cases hs
      exact inv_settle h hn hi hkept (owned_of_none rfl)
  · cases hs

theorem inv_deleted (h : Inv text settings s) {before : Phase}
    (hbefore : s.dispatchers[i]? = some before) (hok : inTime settings s (.delete i reply) = true)
    (hs : deleted settings s i reply before = some s') : Inv text settings s' := by
  unfold deleted at hs
  split at hs
  · rename_i n incident incidents
    obtain ⟨request, hn, hi, hincident, hraised⟩ := h.owned i _ hbefore n incident .raised rfl
    have hintime : reply ≠ .unreachable → s.redis.now < request.expiry settings := by
      intro hreply
      rw [inTime, hbefore] at hok
      simp only [hn, Option.all_some, Bool.or_eq_true, decide_eq_true_eq] at hok
      exact hok.resolve_left hreply
    split at hs
    · cases hs
      exact inv_move h (owned_of_none rfl)
    · cases hs
      exact inv_delete h hn hi hincident hraised (hintime fun heq => by cases heq) rfl
    · cases hs
      exact inv_delete h hn hi hincident hraised (hintime fun heq => by cases heq) rfl
  · cases hs

theorem inv_step (h : Inv text settings s) {l : Step} (hok : inTime settings s l = true)
    (hs : step text settings s l = some s') : Inv text settings s' := by
  cases l with
  | dispatch incidents =>
      cases hs
      refine ⟨?_, h.triggered, h.past, h.held, h.apart⟩
      intro i phase hi
      rcases Nat.lt_or_ge i s.dispatchers.length with hlt | hge
      · rw [List.getElem?_append_left hlt] at hi
        exact h.owned i phase hi
      · rw [List.getElem?_append_right hge] at hi
        have hphase : phase = .claiming incidents := List.mem_singleton.mp (List.mem_of_getElem? hi)
        exact owned_of_none (hphase ▸ rfl)
  | claim i reply =>
      obtain ⟨before, hbefore, hs⟩ := Option.bind_eq_some_iff.mp hs
      exact inv_claimed h hbefore hs
  | finish i raised =>
      obtain ⟨before, hbefore, hs⟩ := Option.bind_eq_some_iff.mp hs
      exact inv_finished h hbefore hs
  | delete i reply =>
      obtain ⟨before, hbefore, hs⟩ := Option.bind_eq_some_iff.mp hs
      exact inv_deleted h hbefore hok hs
  | crash i =>
      obtain ⟨_, _, hs⟩ := Option.map_eq_some_iff.mp hs
      subst hs
      exact inv_move h (owned_of_none rfl)
  | tick millis =>
      cases hs
      exact inv_tick h millis

theorem inv_run {redis : Db}
    (h : Run (step text settings) (fun s l => inTime settings s l = true) (initial redis) s) :
    Inv text settings s :=
  h.invariant (fun _ _ _ hinv hok hs => inv_step hinv hok hs) (inv_initial redis)

end Invariant

theorem requests_apart (text : PyText) (settings : Settings) (redis : Db) (s : State)
    (h : Run (step text settings) (fun s l => inTime settings s l = true) (initial redis) s) :
    (∀ request ∈ s.requests, shouldTrigger text settings request.incident = true) ∧
      s.requests.Pairwise fun a b => a.incident.id = b.incident.id → a.outcome ≠ .deleted →
        a.startedAt + 1000 * settings.automaticInvestigationCooldownSeconds ≤ b.startedAt := by
  have hinv : Inv text settings s := inv_run h
  constructor
  · intro request hmem
    obtain ⟨n, hn⟩ := List.mem_iff_getElem?.mp hmem
    exact hinv.triggered n request hn
  · rw [List.pairwise_iff_getElem]
    intro m n hm hn hmn hid hkept
    have hkeys : s.requests[m].key settings = s.requests[n].key settings := by
      rw [Request.key, hid, Request.key]
    exact hinv.apart m n _ _ hmn (List.getElem?_eq_getElem hm) (List.getElem?_eq_getElem hn)
      hkeys hkept

section Runs

def criticalOnly : Settings where
  automaticInvestigationsEnabled := true
  automaticInvestigationMinSeverity := "critical"
  automaticInvestigationCooldownSeconds := 60
  cooldown_ge := Nat.le_refl 60
  investigationQueueKey := "ai_soc:investigations"

def intrusion : Incident :=
  ⟨7, "open", "critical"⟩

def retried : List Step :=
  [.dispatch [⟨8, "open", "low"⟩, intrusion], .dispatch [intrusion], .dispatch [intrusion],
    .claim 0 .answered, .finish 0 true, .tick 5000, .delete 0 .answered, .claim 1 .answered,
    .tick 1000, .finish 1 false, .tick 59000, .claim 2 .answered]

def starts (s : State) : List (Nat × Outcome) :=
  s.requests.map fun request => (request.startedAt, request.outcome)

theorem retried_apart : ∃ s, starts s = [(0, .deleted), (5000, .returned), (65000, .pending)] ∧
    (∀ request ∈ s.requests, shouldTrigger asciiText criticalOnly request.incident = true) ∧
      s.requests.Pairwise fun a b => a.incident.id = b.incident.id → a.outcome ≠ .deleted →
        a.startedAt + 1000 * criticalOnly.automaticInvestigationCooldownSeconds ≤ b.startedAt := by
  have hrun : (execWhile (step asciiText criticalOnly) (inTime criticalOnly)
      (initial ⟨fun _ => none, 0⟩) retried).any (fun s =>
        starts s = [(0, .deleted), (5000, .returned), (65000, .pending)]) = true := by
    decide
  obtain ⟨s, hs, hstarts⟩ := run_of_execWhile_any hrun
  exact ⟨s, of_decide_eq_true hstarts, requests_apart asciiText criticalOnly _ s hs⟩

example : ((execAll (step asciiText criticalOnly) (initial ⟨fun _ => none, 0⟩)
    [.dispatch [intrusion], .dispatch [intrusion], .dispatch [intrusion],
      .claim 0 .answered, .tick 60000, .claim 1 .answered, .finish 0 true, .delete 0 .answered,
      .claim 2 .answered]).any fun s =>
        starts s = [(0, .deleted), (60000, .pending), (60000, .pending)]) = true := by
  decide

end Runs

end Automation
