import AiSoc.Realtime.Admission

namespace Sockets

open Transition (Run)

section Time

variable (settings : Settings) (slack : Nat)

-- how long a phase lasts at most when the loop and the services answer within the slack; what
-- waits for the client lasts as long as it likes
def Phase.duration : Phase → Option Int
  | .serving _ .sleeping => some (heartbeatMicroseconds settings + slack)
  | .serving _ .stopped => none
  | .revoked _ => none
  | .closed _ _ => none
  | .ended => none
  | _ => some slack

def Timely (w : World) : Event → Prop
  | .tick later => ∀ socket ∈ w.sockets, ∀ d ∈ socket.phase.duration settings slack,
      later ≤ socket.since + d
  | _ => True

instance (w : World) : (event : Event) → Decidable (Timely settings slack w event)
  | .tick later =>
      inferInstanceAs (Decidable (∀ socket ∈ w.sockets,
        ∀ d ∈ socket.phase.duration settings slack, later ≤ socket.since + d))
  | .setUser _ _ => .isTrue trivial
  | .setFamily _ _ => .isTrue trivial
  | .issue _ _ _ => .isTrue trivial
  | .arrive _ _ => .isTrue trivial
  | .act _ _ => .isTrue trivial

def InTime (w : World) : Prop :=
  ∀ (i : Nat) (socket : Socket) (d : Int), w.sockets[i]? = some socket →
    socket.phase.duration settings slack = some d → w.now ≤ socket.since + d

variable {settings slack}

theorem authenticate_since (w : World) (socket : Socket) :
    (socket.authenticate settings w).since = w.now := by
  rw [Socket.authenticate]
  split
  · split <;> rfl
  · rfl

theorem advance_since {w : World} {socket next : Socket} {act : Act}
    (h : advance settings w socket act socket.phase = some next) :
    next = socket ∨ next.since = w.now := by
  simp only [advance] at h
  split at h
  case h_1 =>
    cases h
    exact .inr (authenticate_since w socket)
  all_goals
    (try split at h) <;> cases h <;>
      first
        | exact .inr rfl
        | exact .inl rfl

theorem duration_nonneg {phase : Phase} {d : Int} (h : phase.duration settings slack = some d) :
    0 ≤ d := by
  have hbeat : (0 : Int) ≤ heartbeatMicroseconds settings := by
    rw [heartbeatMicroseconds]
    omega
  unfold Phase.duration at h
  split at h <;> cases h <;> omega

theorem inTime_of_step {w w' : World} {event : Event} (h : step settings w event = some w')
    (htimely : Timely settings slack w event) (hw : InTime settings slack w) :
    InTime settings slack w' := by
  intro i socket d hsocket hd
  have hnonneg := duration_nonneg hd
  cases event with
  | tick later =>
      obtain ⟨-, rfl⟩ := step_tick h
      exact htimely socket (List.mem_of_getElem? hsocket) d hd
  | act j act =>
      rcases sockets_of_step h hsocket with
        hold | ⟨before, act', -, hbefore, hnext, rfl⟩ | ⟨origin, ticket, -, hevent, -⟩
      · obtain ⟨s, n, -, -, rfl⟩ := step_act h
        exact hw i socket d hold hd
      · rcases advance_since hnext with rfl | hsince
        · exact hw i socket d hbefore hd
        · rw [hsince]
          exact Int.le_add_of_nonneg_right hnonneg
      · cases hevent
  | arrive origin ticket =>
      rcases sockets_of_step h hsocket with
        hold | ⟨before, act', hevent, -⟩ | ⟨origin, ticket, -, -, rfl⟩
      · cases h
        exact hw i socket d hold hd
      · cases hevent
      · cases h
        exact Int.le_add_of_nonneg_right hnonneg
  | _ =>
      cases h
      exact hw i socket d hsocket hd

end Time

section Withdrawal

inductive Cause where
  | user (userId : Nat)
  | family (familyId : Nat)

def Cause.Withdrawn (w : World) : Cause → Prop
  | .user userId => permitted (w.users userId) = false
  | .family familyId => w.families familyId = false

instance (w : World) : (cause : Cause) → Decidable (cause.Withdrawn w)
  | .user userId => inferInstanceAs (Decidable (permitted (w.users userId) = false))
  | .family familyId => inferInstanceAs (Decidable (w.families familyId = false))

def Cause.Concerns (identity : Identity) : Cause → Prop
  | .user userId => identity.userId = userId
  | .family familyId => identity.familyId = familyId

def WithdrawnFrom (settings : Settings) (slack : Nat) (cause : Cause) (r : Int) (w : World)
    (event : Event) : Prop :=
  Timely settings slack w event ∧ (r ≤ w.now → cause.Withdrawn w)

instance (settings : Settings) (slack : Nat) (cause : Cause) (r : Int) (w : World)
    (event : Event) : Decidable (WithdrawnFrom settings slack cause r w event) :=
  inferInstanceAs (Decidable (_ ∧ _))

def Phase.passed : Cause → Phase → Bool
  | .user _, .readingFamily _ => true
  | _, .answered (some _) => true
  | _, .accepting _ => true
  | _, .serving _ _ => true
  | _, .revoked _ => true
  | _, _ => false

def Phase.lag (settings : Settings) (slack : Nat) (cause : Cause) : Phase → Option Int
  | .readingFamily _ =>
      match cause with
      | .user _ => some 0
      | .family _ => none
  | .answered (some _) => some slack
  | .accepting _ => some (2 * slack)
  | .serving _ .created => some (3 * slack)
  | .serving _ .sleeping => some (4 * slack)
  | .serving _ .readingUser => some (5 * slack + heartbeatMicroseconds settings)
  | .serving _ (.readingFamily user) =>
      match cause with
      | .user _ => some (if user then 0 else 6 * slack + heartbeatMicroseconds settings)
      | .family _ => some (6 * slack + heartbeatMicroseconds settings)
  | .serving _ (.checked allowed) =>
      some (if allowed then slack else 7 * slack + heartbeatMicroseconds settings)
  | _ => none

structure Lagging (settings : Settings) (slack : Nat) (cause : Cause) (r : Int)
    (socket : Socket) : Prop where
  arrived : socket.phase.passed cause = true → socket.arrivedAt < r
  lag : ∀ d, socket.phase.lag settings slack cause = some d → socket.since ≤ r + d

variable {settings : Settings} {slack : Nat} {cause : Cause} {r : Int}

theorem lagging_of_none {socket : Socket} (hpassed : socket.phase.passed cause = false)
    (hlag : socket.phase.lag settings slack cause = none) :
    Lagging settings slack cause r socket where
  arrived h := by
    rw [hpassed] at h
    cases h
  lag d h := by
    rw [hlag] at h
    cases h

theorem heartbeat_nonneg (settings : Settings) : 0 ≤ heartbeatMicroseconds settings := by
  rw [heartbeatMicroseconds]
  omega

theorem lagging_authenticate (w : World) (socket : Socket) :
    Lagging settings slack cause r (socket.authenticate settings w) := by
  rw [Socket.authenticate]
  split
  · split <;> cases cause <;> exact lagging_of_none rfl rfl
  · cases cause <;> exact lagging_of_none rfl rfl

theorem lagging_readUser {w : World} {socket : Socket} {identity : Identity}
    (hstands : r ≤ w.now → cause.Withdrawn w) (hconcerns : cause.Concerns identity)
    (harrived : socket.arrivedAt ≤ w.now) :
    Lagging settings slack cause r (socket.enter w.now
      (if permitted (w.users identity.userId) then .readingFamily identity
        else .answered none)) := by
  split
  · rename_i hpermitted
    cases cause with
    | user userId =>
        have hlt : w.now < r := by
          apply Int.lt_of_not_ge
          intro hr
          have hnot : permitted (w.users userId) = false := hstands hr
          rw [← hconcerns, hpermitted] at hnot
          cases hnot
        refine ⟨fun _ => Int.lt_of_le_of_lt harrived hlt, fun d hd => ?_⟩
        cases hd
        exact Int.le_of_lt (by rwa [Int.add_zero])
    | family familyId => exact lagging_of_none rfl rfl
  · cases cause <;> exact lagging_of_none rfl rfl

theorem lagging_readFamily {w : World} {socket : Socket} {identity : Identity}
    (hstands : r ≤ w.now → cause.Withdrawn w) (hconcerns : cause.Concerns identity)
    (harrived : socket.arrivedAt ≤ w.now) (hphase : socket.phase = .readingFamily identity)
    (hdue : w.now ≤ socket.since + slack) (hsocket : Lagging settings slack cause r socket) :
    Lagging settings slack cause r (socket.enter w.now
      (.answered (if w.families identity.familyId then some identity else none))) := by
  split
  · rename_i hactive
    cases cause with
    | user userId =>
        have hlag := hsocket.lag 0 (by rw [hphase]; rfl)
        refine ⟨fun _ => hsocket.arrived (by rw [hphase]; rfl), fun d hd => ?_⟩
        cases hd
        exact Int.le_trans hdue (by omega)
    | family familyId =>
        have hlt : w.now < r := by
          apply Int.lt_of_not_ge
          intro hr
          have hnot : w.families familyId = false := hstands hr
          rw [← hconcerns, hactive] at hnot
          cases hnot
        refine ⟨fun _ => Int.lt_of_le_of_lt harrived hlt, fun d hd => ?_⟩
        cases hd
        exact Int.le_trans (Int.le_of_lt hlt) (by omega)
  · cases cause <;> exact lagging_of_none rfl rfl

theorem Lagging.follow {w : World} {socket : Socket} {phase : Phase} {d duration : Int}
    (hsocket : Lagging settings slack cause r socket)
    (hpassed : socket.phase.passed cause = true)
    (hlag : socket.phase.lag settings slack cause = some d)
    (hdue : w.now ≤ socket.since + duration)
    (hnext : ∀ d', phase.lag settings slack cause = some d' → d + duration ≤ d') :
    Lagging settings slack cause r (socket.enter w.now phase) where
  arrived _ := hsocket.arrived hpassed
  lag d' hd' := by
    have hbegan := hsocket.lag d hlag
    have hroom := hnext d' hd'
    have hnow : (socket.enter w.now phase).since = w.now := rfl
    omega

theorem lagging_pulseFamily {w : World} {socket : Socket} {identity : Identity} {user : Bool}
    (hstands : r ≤ w.now → cause.Withdrawn w) (hconcerns : cause.Concerns identity)
    (hphase : socket.phase = .serving identity (.readingFamily user))
    (hdue : w.now ≤ socket.since + slack) (hsocket : Lagging settings slack cause r socket) :
    Lagging settings slack cause r (socket.enter w.now
      (.serving identity (.checked (user && w.families identity.familyId)))) := by
  have hbeat := heartbeat_nonneg settings
  have hpassed : socket.phase.passed cause = true := by
    rw [hphase]
    cases cause <;> rfl
  cases cause with
  | user userId =>
      refine hsocket.follow hpassed (by rw [hphase]; rfl) hdue fun d hd => ?_
      cases hd
      cases user <;> cases w.families identity.familyId <;>
        simp only [Bool.false_and, Bool.true_and, Bool.false_eq_true, if_false, if_true] <;> omega
  | family familyId =>
      by_cases hr : r ≤ w.now
      · have hnot : w.families identity.familyId = false := by
          have hfamily : w.families familyId = false := hstands hr
          rwa [← hconcerns] at hfamily
        refine hsocket.follow hpassed (by rw [hphase]; rfl) hdue fun d hd => ?_
        cases hd
        rw [hnot, Bool.and_false, if_neg Bool.false_ne_true]
        omega
      · refine ⟨fun _ => hsocket.arrived hpassed, fun d hd => ?_⟩
        cases hd
        have hnow : (socket.enter w.now
          (.serving identity (.checked (user && w.families identity.familyId)))).since =
            w.now := rfl
        split <;> omega

theorem lagging_pulseUser {w : World} {socket : Socket} {identity : Identity}
    (hstands : r ≤ w.now → cause.Withdrawn w) (hconcerns : cause.Concerns identity)
    (hphase : socket.phase = .serving identity .readingUser)
    (hdue : w.now ≤ socket.since + slack) (hsocket : Lagging settings slack cause r socket) :
    Lagging settings slack cause r (socket.enter w.now
      (.serving identity (.readingFamily (permitted (w.users identity.userId))))) := by
  have hpassed : socket.phase.passed cause = true := by
    rw [hphase]
    cases cause <;> rfl
  have hlag : socket.phase.lag settings slack cause =
      some (5 * slack + heartbeatMicroseconds settings) := by
    rw [hphase]
    rfl
  cases cause with
  | user userId =>
      by_cases hr : r ≤ w.now
      · have hnot : permitted (w.users identity.userId) = false := by
          have huser : permitted (w.users userId) = false := hstands hr
          rwa [← hconcerns] at huser
        refine hsocket.follow hpassed hlag hdue fun d hd => ?_
        cases hd
        rw [hnot, if_neg Bool.false_ne_true]
        omega
      · refine ⟨fun _ => hsocket.arrived hpassed, fun d hd => ?_⟩
        cases hd
        have hbeat := heartbeat_nonneg settings
        have hnow : (socket.enter w.now
          (.serving identity (.readingFamily (permitted (w.users identity.userId))))).since =
            w.now := rfl
        split <;> omega
  | family familyId =>
      refine hsocket.follow hpassed hlag hdue fun d hd => ?_
      cases hd
      omega

theorem lagging_advance {w : World} {socket next : Socket} {act : Act}
    (h : advance settings w socket act socket.phase = some next)
    (hstands : r ≤ w.now → cause.Withdrawn w)
    (hconcerns : ∀ identity, socket.phase.identity = some identity → cause.Concerns identity)
    (hdue : ∀ d, socket.phase.duration settings slack = some d → w.now ≤ socket.since + d)
    (harrived : socket.arrivedAt ≤ w.now) (hsocket : Lagging settings slack cause r socket) :
    Lagging settings slack cause r next := by
  have hbeat := heartbeat_nonneg settings
  simp only [advance] at h
  split at h
  case h_1 =>
    cases h
    exact lagging_authenticate w socket
  case h_2 identity hphase =>
    cases h
    exact lagging_readUser hstands (hconcerns identity (by rw [hphase]; rfl)) harrived
  case h_3 identity hphase =>
    cases h
    exact lagging_readFamily hstands (hconcerns identity (by rw [hphase]; rfl)) harrived hphase
      (hdue slack (by rw [hphase]; rfl)) hsocket
  case h_4 =>
    cases h
    cases cause <;> exact lagging_of_none rfl rfl
  case h_5 identity hphase =>
    cases h
    split
    · cases cause <;> exact lagging_of_none rfl rfl
    · refine hsocket.follow (d := slack) (by rw [hphase]; cases cause <;> rfl) (by rw [hphase]; rfl)
        (hdue slack (by rw [hphase]; rfl)) fun d hd => ?_
      cases hd
      omega
  case h_6 identity hphase =>
    cases h
    refine hsocket.follow (by rw [hphase]; cases cause <;> rfl) (by rw [hphase]; rfl)
      (hdue slack (by rw [hphase]; rfl)) fun d hd => ?_
    cases hd
    omega
  case h_7 identity hphase =>
    cases h
    refine hsocket.follow (by rw [hphase]; cases cause <;> rfl) (by rw [hphase]; rfl)
      (hdue slack (by rw [hphase]; rfl)) fun d hd => ?_
    cases hd
    omega
  case h_8 identity hphase =>
    split at h
    · cases h
      refine hsocket.follow (by rw [hphase]; cases cause <;> rfl) (by rw [hphase]; rfl)
        (hdue _ (by rw [hphase]; rfl)) fun d hd => ?_
      cases hd
      omega
    · cases h
  case h_9 identity hphase =>
    cases h
    exact lagging_pulseUser hstands (hconcerns identity (by rw [hphase]; rfl)) hphase
      (hdue slack (by rw [hphase]; rfl)) hsocket
  case h_10 identity user hphase =>
    cases h
    exact lagging_pulseFamily hstands (hconcerns identity (by rw [hphase]; rfl)) hphase
      (hdue slack (by rw [hphase]; rfl)) hsocket
  case h_11 identity allowed hphase =>
    cases h
    have hpassed : socket.phase.passed cause = true := by
      rw [hphase]
      cases cause <;> rfl
    cases allowed with
    | false =>
        exact ⟨fun _ => hsocket.arrived hpassed, fun d hd => by cases hd⟩
    | true =>
        refine hsocket.follow (d := slack) hpassed (by rw [hphase]; rfl)
          (hdue slack (by rw [hphase]; rfl)) fun d hd => ?_
        cases hd
        omega
  case h_12 =>
    cases h
    exact hsocket
  all_goals
    rename_i hphase
    cases h <;> first
      | (cases cause <;> exact lagging_of_none rfl rfl)
      | exact ⟨fun hpassed => hsocket.arrived (by rw [hphase]; cases cause <;> rfl),
          fun d hd => by cases hd⟩

end Withdrawal

section Runs

variable {settings : Settings} {slack : Nat} {cause : Cause} {r : Int}

def grace (settings : Settings) (slack : Nat) : Int :=
  8 * slack + heartbeatMicroseconds settings

structure Watched (settings : Settings) (slack : Nat) (cause : Cause) (r : Int) (w : World) :
    Prop where
  inTime : InTime settings slack w
  identified : Identified w
  arrived : ∀ (i : Nat) (socket : Socket), w.sockets[i]? = some socket → socket.arrivedAt ≤ w.now
  lagging : ∀ (i : Nat) (socket : Socket), w.sockets[i]? = some socket →
    (∀ identity, socket.phase.identity = some identity → cause.Concerns identity) →
      Lagging settings slack cause r socket
  faulted : ∀ (i : Nat) (socket : Socket) (identity : Identity), w.sockets[i]? = some socket →
    socket.phase = .serving identity .stopped → socket.faulted = true
  frames : ∀ frame ∈ w.sent, cause.Concerns frame.identity →
    ∃ socket, w.sockets[frame.socket]? = some socket ∧
      (socket.faulted = false → frame.sentAt ≤ r + grace settings slack)

theorem arrived_of_step {w w' : World} {event : Event} (h : step settings w event = some w')
    (hw : ∀ (i : Nat) (socket : Socket), w.sockets[i]? = some socket → socket.arrivedAt ≤ w.now)
    (i : Nat) (socket : Socket) (hsocket : w'.sockets[i]? = some socket) :
    socket.arrivedAt ≤ w'.now := by
  have hnow := now_of_step h
  rcases sockets_of_step h hsocket with
    hold | ⟨before, act, -, hbefore, hnext, -⟩ | ⟨origin, ticket, -, -, rfl⟩
  · exact Int.le_trans (hw i socket hold) hnow
  · rw [(advance_request hnext).2.2]
    exact Int.le_trans (hw i before hbefore) hnow
  · exact hnow

theorem lagging_of_anonymous {socket : Socket} (h : socket.phase.identity = none) :
    Lagging settings slack cause r socket := by
  cases hphase : socket.phase with
  | answered identity =>
      rw [hphase] at h
      rw [Phase.identity] at h
      rw [h] at hphase
      cases cause <;> exact lagging_of_none (by rw [hphase]; rfl) (by rw [hphase]; rfl)
  | arrived => cases cause <;> exact lagging_of_none (by rw [hphase]; rfl) (by rw [hphase]; rfl)
  | leaving => cases cause <;> exact lagging_of_none (by rw [hphase]; rfl) (by rw [hphase]; rfl)
  | closed code reason =>
      cases cause <;> exact lagging_of_none (by rw [hphase]; rfl) (by rw [hphase]; rfl)
  | ended => cases cause <;> exact lagging_of_none (by rw [hphase]; rfl) (by rw [hphase]; rfl)
  | _ =>
      rw [hphase] at h
      cases h

theorem lagging_of_step {w w' : World} {event : Event} (h : step settings w event = some w')
    (hstands : r ≤ w.now → cause.Withdrawn w) (hw : Watched settings slack cause r w) (i : Nat)
    (socket : Socket) (hsocket : w'.sockets[i]? = some socket)
    (hconcerns : ∀ identity, socket.phase.identity = some identity → cause.Concerns identity) :
    Lagging settings slack cause r socket := by
  rcases sockets_of_step h hsocket with
    hold | ⟨before, act, -, hbefore, hnext, -⟩ | ⟨origin, ticket, -, -, rfl⟩
  · exact hw.lagging i socket hold hconcerns
  · have hadvance := fun hconcerned => lagging_advance hnext hstands hconcerned
      (fun d => hw.inTime i before d hbefore) (hw.arrived i before hbefore)
      (hw.lagging i before hbefore hconcerned)
    cases hidentity : socket.phase.identity with
    | none => exact lagging_of_anonymous hidentity
    | some identity =>
        have hconcerned := hconcerns identity hidentity
        apply hadvance
        intro other hother
        rcases advance_identity hnext with ⟨-, hkept⟩ | ⟨userId, familyId, -, hphase, -⟩
        · have hsame := hkept identity hidentity
          rw [hother] at hsame
          cases hsame
          exact hconcerned
        · rw [hphase] at hother
          cases hother
  · exact lagging_of_anonymous rfl

theorem authenticate_faulted (settings : Settings) (w : World) (socket : Socket) :
    (socket.authenticate settings w).faulted = socket.faulted ∧
      ∀ identity, (socket.authenticate settings w).phase ≠ .serving identity .stopped := by
  rw [Socket.authenticate]
  split
  · split <;> exact ⟨rfl, fun _ h => by cases h⟩
  · exact ⟨rfl, fun _ h => by cases h⟩

theorem advance_faulted {w : World} {socket next : Socket} {act : Act}
    (h : advance settings w socket act socket.phase = some next) :
    (socket.faulted = true → next.faulted = true) ∧
      ∀ identity, next.phase = .serving identity .stopped →
        next.faulted = true ∨ socket.phase = .serving identity .stopped := by
  simp only [advance] at h
  split at h
  case h_1 =>
    cases h
    obtain ⟨hsame, hphase⟩ := authenticate_faulted settings w socket
    exact ⟨fun hfaulted => hsame.trans hfaulted, fun identity hstopped =>
      absurd hstopped (hphase identity)⟩
  case h_12 =>
    cases h
    exact ⟨id, fun identity hstopped => .inr hstopped⟩
  all_goals
    (try split at h) <;> cases h <;> refine ⟨?_, fun identity hstopped => ?_⟩ <;>
      first
        | exact id
        | exact fun _ => rfl
        | exact .inl rfl
        | cases hstopped

theorem faulted_of_step {w w' : World} {event : Event} (h : step settings w event = some w')
    (hw : Watched settings slack cause r w) (i : Nat) (socket : Socket) (identity : Identity)
    (hsocket : w'.sockets[i]? = some socket)
    (hphase : socket.phase = .serving identity .stopped) : socket.faulted = true := by
  rcases sockets_of_step h hsocket with
    hold | ⟨before, act, -, hbefore, hnext, -⟩ | ⟨origin, ticket, -, -, rfl⟩
  · exact hw.faulted i socket identity hold hphase
  · obtain ⟨hkept, hstopped⟩ := advance_faulted hnext
    rcases hstopped identity hphase with hfaulted | hbeforePhase
    · exact hfaulted
    · exact hkept (hw.faulted i before identity hbefore hbeforePhase)
  · cases hphase

theorem now_le_of_serving {w : World} (hw : Watched settings slack cause r w) {i : Nat}
    {socket : Socket} {identity : Identity} {heartbeat : Heartbeat}
    (hsocket : w.sockets[i]? = some socket) (hphase : socket.phase = .serving identity heartbeat)
    (hconcerns : cause.Concerns identity) (hfaulted : socket.faulted = false) :
    w.now ≤ r + grace settings slack := by
  have hbeat := heartbeat_nonneg settings
  have hlagging := hw.lagging i socket hsocket fun other hother => by
    rw [hphase] at hother
    cases hother
    exact hconcerns
  have hwithin : ∀ d duration, socket.phase.lag settings slack cause = some d →
      socket.phase.duration settings slack = some duration → d + duration ≤ grace settings slack →
        w.now ≤ r + grace settings slack := by
    intro d duration hlag hduration hle
    have hbegan := hlagging.lag d hlag
    have hnow := hw.inTime i socket duration hsocket hduration
    omega
  rw [hphase] at hwithin
  cases heartbeat with
  | created => exact hwithin _ _ rfl rfl (by rw [grace]; omega)
  | sleeping => exact hwithin _ _ rfl rfl (by rw [grace]; omega)
  | readingUser => exact hwithin _ _ rfl rfl (by rw [grace]; omega)
  | readingFamily user =>
      cases cause with
      | user userId =>
          refine hwithin _ _ rfl rfl ?_
          rw [grace]
          split <;> omega
      | family familyId => exact hwithin _ _ rfl rfl (by rw [grace]; omega)
  | checked allowed =>
      refine hwithin _ _ rfl rfl ?_
      rw [grace]
      split <;> omega
  | stopped =>
      rw [hw.faulted i socket identity hsocket hphase] at hfaulted
      cases hfaulted

theorem sockets_kept {w w' : World} {event : Event} (h : step settings w event = some w') {i : Nat}
    {socket : Socket} (hsocket : w.sockets[i]? = some socket) :
    ∃ next, w'.sockets[i]? = some next ∧ (socket.faulted = true → next.faulted = true) := by
  cases event with
  | tick later =>
      obtain ⟨-, rfl⟩ := step_tick h
      exact ⟨socket, hsocket, id⟩
  | arrive origin ticket =>
      cases h
      have hlt := (List.getElem?_eq_some_iff.mp hsocket).1
      exact ⟨socket, (List.getElem?_append_left hlt).trans hsocket, id⟩
  | act j act =>
      obtain ⟨before, next, hbefore, hnext, rfl⟩ := step_act h
      by_cases hij : j = i
      · subst hij
        cases hbefore.symm.trans hsocket
        have hset : (w.sockets.set j next)[j]? = some next := by
          rw [List.getElem?_set_self', hsocket]
          rfl
        exact ⟨next, hset, (advance_faulted hnext).1⟩
      · exact ⟨socket, (List.getElem?_set_ne hij).trans hsocket, id⟩
  | _ =>
      cases h
      exact ⟨socket, hsocket, id⟩

theorem sent_of_step {w w' : World} {event : Event} (h : step settings w event = some w') :
    w'.sent = w.sent ∨ ∃ i socket identity heartbeat, w.sockets[i]? = some socket ∧
      socket.phase = .serving identity heartbeat ∧ w'.sent = w.sent ++ [⟨i, identity, w.now⟩] := by
  cases event with
  | tick later =>
      obtain ⟨-, rfl⟩ := step_tick h
      exact .inl rfl
  | act i act =>
      obtain ⟨socket, next, hsocket, hnext, rfl⟩ := step_act h
      by_cases hsend : ∃ identity heartbeat, act = .send ∧
          socket.phase = .serving identity heartbeat
      · obtain ⟨identity, heartbeat, rfl, hphase⟩ := hsend
        refine .inr ⟨i, socket, identity, heartbeat, hsocket, hphase, ?_⟩
        rw [World.perform, hphase]
        rfl
      · refine .inl ?_
        simp only [World.perform, sentAfter]
        split
        · rename_i hphase
          exact absurd ⟨_, _, rfl, hphase⟩ hsend
        · rfl
  | _ =>
      cases h
      exact .inl rfl

theorem frames_of_step {w w' : World} {event : Event} (h : step settings w event = some w')
    (hw : Watched settings slack cause r w) (frame : Frame) (hframe : frame ∈ w'.sent)
    (hconcerns : cause.Concerns frame.identity) :
    ∃ socket, w'.sockets[frame.socket]? = some socket ∧
      (socket.faulted = false → frame.sentAt ≤ r + grace settings slack) := by
  have hkept : ∀ socket, w.sockets[frame.socket]? = some socket →
      (socket.faulted = false → frame.sentAt ≤ r + grace settings slack) →
        ∃ socket, w'.sockets[frame.socket]? = some socket ∧
          (socket.faulted = false → frame.sentAt ≤ r + grace settings slack) := by
    intro socket hsocket hbound
    obtain ⟨next, hnext, hfaulted⟩ := sockets_kept h hsocket
    refine ⟨next, hnext, fun hnot => hbound ?_⟩
    cases hold : socket.faulted with
    | false => rfl
    | true =>
        rw [hfaulted hold] at hnot
        cases hnot
  rcases sent_of_step h with heq | ⟨i, socket, identity, heartbeat, hsocket, hphase, heq⟩
  · rw [heq] at hframe
    obtain ⟨socket, hsocket, hbound⟩ := hw.frames frame hframe hconcerns
    exact hkept socket hsocket hbound
  · rw [heq] at hframe
    rcases List.mem_append.mp hframe with hold | hnew
    · obtain ⟨socket, hsocket, hbound⟩ := hw.frames frame hold hconcerns
      exact hkept socket hsocket hbound
    · rw [List.mem_singleton.mp hnew] at hconcerns hkept ⊢
      exact hkept socket hsocket (now_le_of_serving hw hsocket hphase hconcerns)

theorem watched_of_step {w w' : World} {event : Event} (h : step settings w event = some w')
    (hok : WithdrawnFrom settings slack cause r w event)
    (hw : Watched settings slack cause r w) : Watched settings slack cause r w' where
  inTime := inTime_of_step h hok.1 hw.inTime
  identified := identified_of_step h hw.identified
  arrived := arrived_of_step h hw.arrived
  lagging := lagging_of_step h hok.2 hw
  faulted := faulted_of_step h hw
  frames := frames_of_step h hw

theorem watched_start (now : Int) (users : Nat → Option User) (families : Nat → Bool) :
    Watched settings slack cause r (start now users families) where
  inTime i socket d h := by cases h
  identified i socket identity h := by cases h
  arrived i socket h := by cases h
  lagging i socket h := by cases h
  faulted i socket identity h := by cases h
  frames frame h := by cases h

theorem watched_run {now : Int} {users : Nat → Option User} {families : Nat → Bool} {w : World}
    (h : Run (step settings) (WithdrawnFrom settings slack cause r) (start now users families) w) :
    Watched settings slack cause r w :=
  h.invariant (fun _ _ _ hw hok hstep => watched_of_step hstep hok hw)
    (watched_start now users families)

structure CutOff (settings : Settings) (slack : Nat) (cause : Cause) (r : Int) (w : World) :
    Prop where
  sockets : ∀ (i : Nat) (socket : Socket) (identity : Identity) (heartbeat : Heartbeat),
    w.sockets[i]? = some socket → socket.phase = .serving identity heartbeat →
      cause.Concerns identity → socket.arrivedAt < r ∧
        (socket.faulted = false → w.now ≤ r + grace settings slack)
  frames : ∀ frame ∈ w.sent, cause.Concerns frame.identity →
    ∃ socket, w.sockets[frame.socket]? = some socket ∧
      (socket.faulted = false → frame.sentAt ≤ r + grace settings slack)

theorem withdrawal_cuts_off {now : Int} {users : Nat → Option User} {families : Nat → Bool}
    {w : World}
    (h : Run (step settings) (WithdrawnFrom settings slack cause r) (start now users families) w) :
    CutOff settings slack cause r w where
  sockets i socket identity heartbeat hsocket hphase hconcerns := by
    have hw := watched_run h
    have hlagging := hw.lagging i socket hsocket fun other hother => by
      rw [hphase] at hother
      cases hother
      exact hconcerns
    refine ⟨hlagging.arrived ?_, now_le_of_serving hw hsocket hphase hconcerns⟩
    rw [hphase]
    cases cause <;> rfl
  frames := (watched_run h).frames

def revokedSession : List Event :=
  [firstIssue, .arrive none (some "q3Vb9kZt")] ++ admitted 0 ++
    [.tick 5000000, .setFamily 9 false, .tick 6000000, .act 0 .send, .tick 20000000, .act 0 .wake,
      .act 0 .pulseUser, .act 0 .pulseFamily, .act 0 .resume]

theorem revokedSession_cut_off :
    ∃ w, w.sockets.map Socket.phase = [.revoked ⟨7, 9⟩] ∧ w.sent.map Frame.sentAt = [6000000] ∧
      CutOff deployed 1000000 (.family 9) 5000001 w := by
  obtain ⟨w, hrun, hend⟩ := @Transition.run_of_execWhile_any _ _ (step deployed)
    (fun w event => decide (WithdrawnFrom deployed 1000000 (.family 9) 5000001 w event))
    revokedSession opening
    (fun w => decide (w.sockets.map Socket.phase = [.revoked ⟨7, 9⟩] ∧
      w.sent.map Frame.sentAt = [6000000])) (by decide)
  obtain ⟨hphases, hsent⟩ := of_decide_eq_true hend
  exact ⟨w, hphases, hsent,
    withdrawal_cuts_off (hrun.mono fun _ _ h => of_decide_eq_true h)⟩

theorem stopped_heartbeat_serves_on {w : World} {i : Nat} {socket : Socket} {identity : Identity}
    (hsocket : w.sockets[i]? = some socket) (hphase : socket.phase = .serving identity .readingUser)
    (hothers : ∀ other ∈ w.sockets.eraseIdx i, other.phase.duration settings slack = none)
    (hcause : cause.Withdrawn w) {later : Int} (hlater : w.now ≤ later) :
    ∃ w', Run (step settings) (WithdrawnFrom settings slack cause r) w w' ∧
      ⟨i, identity, later⟩ ∈ w'.sent := by
  let stopped : Socket := { socket.enter w.now (.serving identity .stopped) with faulted := true }
  let faulted : World := w.perform settings i .fault socket stopped
  let lasting : World := { faulted with now := later }
  have hlast : faulted.sockets[i]? = some stopped := by
    have hset : (w.sockets.set i stopped)[i]? = some stopped := by
      rw [List.getElem?_set_self', hsocket]
      rfl
    exact hset
  have hfault : step settings w (.act i .fault) = some faulted := by
    rw [step, hsocket, Option.bind_some, hphase]
    rfl
  have htick : step settings faulted (.tick later) = some lasting := if_pos hlater
  have hsend : step settings lasting (.act i .send) =
      some (lasting.perform settings i .send stopped stopped) := by
    have hget : lasting.sockets[i]? = some stopped := hlast
    rw [step, hget]
    rfl
  have htimely : Timely settings slack faulted (.tick later) := by
    intro other hother d hd
    rcases List.mem_iff_getElem?.mp hother with ⟨j, hj⟩
    have hset : (w.sockets.set i stopped)[j]? = some other := hj
    by_cases hij : i = j
    · subst hij
      cases hlast.symm.trans hset
      cases hd
    · rw [List.getElem?_set_ne hij] at hset
      have hmem : other ∈ w.sockets.eraseIdx i :=
        List.mem_eraseIdx_iff_getElem?.mpr ⟨j, Ne.symm hij, hset⟩
      rw [hothers other hmem] at hd
      cases hd
  have hact : ∀ (w : World) (act : Act), Timely settings slack w (.act i act) :=
    fun _ _ => trivial
  have hstopped : Run (step settings) (WithdrawnFrom settings slack cause r) w faulted :=
    (Run.refl w).tail ⟨hact w .fault, fun _ => hcause⟩ hfault
  have hlasting := hstopped.tail ⟨htimely, fun _ => hcause⟩ htick
  exact ⟨_, hlasting.tail ⟨hact lasting .send, fun _ => hcause⟩ hsend,
    List.mem_append_right _ (List.mem_singleton_self _)⟩

end Runs

end Sockets
