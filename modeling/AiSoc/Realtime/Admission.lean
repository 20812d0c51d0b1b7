import AiSoc.Realtime.Sockets

namespace Sockets

open Tickets (RealtimeTicketStore Redis Entry ticketValue)

section Redis

variable {settings : Settings}

def Issue.entry (settings : Settings) (issue : Issue) : Entry :=
  ⟨ticketValue issue.userId issue.familyId,
    issue.issuedAt + settings.store.ttlSeconds * 1000000⟩

def Issue.digest (settings : Settings) (issue : Issue) : String :=
  settings.store.digest issue.ticket.value

theorem key_eq_iff {store : RealtimeTicketStore} {ticket other : String} :
    store.key ticket = store.key other ↔ store.digest ticket = store.digest other :=
  ⟨Tickets.digest_of_key, fun h => by rw [RealtimeTicketStore.key, RealtimeTicketStore.key, h]⟩

theorem consumeTicket_redis (redis : Redis) (now : Int) (ticket : Option String)
    (key : String) :
    (consumeTicket settings redis now ticket).2 key = redis key ∨
      (consumeTicket settings redis now ticket).2 key = none := by
  cases ticket with
  | none => exact .inl rfl
  | some ticket =>
      simp only [consumeTicket]
      split
      · exact .inl rfl
      · rw [Tickets.consume_redis]
        by_cases hkey : key = settings.store.key ticket
        · rw [hkey, Function.update_self]
          exact .inr rfl
        · rw [Function.update_of_ne hkey]
          exact .inl rfl

theorem redisAfter_cases (settings : Settings) (w : World) (socket : Socket) (act : Act)
    (key : String) :
    redisAfter settings w socket act key = w.redis key ∨
      redisAfter settings w socket act key = none := by
  cases act with
  | authenticate =>
      simp only [redisAfter]
      split
      · exact consumeTicket_redis w.redis w.now socket.ticket key
      · exact .inl rfl
  | _ => exact .inl rfl

theorem consumeTicket_some {redis : Redis} {now : Int} {ticket : Option String}
    {userId familyId : Nat}
    (h : (consumeTicket settings redis now ticket).1 = some (userId, familyId)) :
    ∃ text entry, ticket = some text ∧ redis (settings.store.key text) = some entry ∧
      now < entry.expiresAt ∧
      Tickets.parseTicketValue entry.value = some (userId, familyId) ∧
      (consumeTicket settings redis now ticket).2 (settings.store.key text) = none := by
  cases ticket with
  | none => cases h
  | some text =>
      simp only [consumeTicket] at h ⊢
      split at h
      · cases h
      · rename_i hne
        have hgone :
            (settings.store.consume redis now text).2 (settings.store.key text) = none := by
          rw [Tickets.consume_redis, Function.update_self]
        simp only [RealtimeTicketStore.consume, Tickets.getdel, Tickets.live] at h
        cases hentry : redis (settings.store.key text) with
        | none =>
            rw [hentry] at h
            cases h
        | some entry =>
            rw [hentry, Option.filter_some] at h
            by_cases hlive : now < entry.expiresAt
            · rw [if_pos (decide_eq_true hlive), Option.map_some] at h
              split at h
              · cases h
              · cases h
              · rename_i value _ hvalue
                cases hvalue
                exact ⟨text, entry, rfl, hentry, hlive, h, by rwa [if_neg hne]⟩
            · rw [if_neg (by simpa using hlive)] at h
              cases h

end Redis

section Handler

variable {settings : Settings}

def Phase.identity : Phase → Option Identity
  | .readingUser identity => some identity
  | .readingFamily identity => some identity
  | .answered identity => identity
  | .accepting identity => some identity
  | .serving identity _ => some identity
  | .revoked identity => some identity
  | _ => none

theorem authenticate_cases (settings : Settings) (w : World) (socket : Socket) :
    (∃ phase, phase.identity = none ∧
        socket.authenticate settings w = socket.enter w.now phase) ∨
      ∃ userId familyId, originAllowed settings socket.origin = true ∧
        (consumeTicket settings w.redis w.now socket.ticket).1 = some (userId, familyId) ∧
        socket.authenticate settings w =
          { socket.enter w.now (.readingUser ⟨userId, familyId⟩) with
            admission := some (⟨userId, familyId⟩, w.now) } := by
  rw [Socket.authenticate]
  split
  · rename_i horigin
    cases hconsumed : (consumeTicket settings w.redis w.now socket.ticket).1 with
    | none => exact .inl ⟨.answered none, rfl, rfl⟩
    | some identity => exact .inr ⟨identity.1, identity.2, horigin, rfl, rfl⟩
  · exact .inl ⟨.closed 4403 "Origin not allowed", rfl, rfl⟩

theorem advance_request {w : World} {socket next : Socket} {act : Act}
    (h : advance settings w socket act socket.phase = some next) :
    next.origin = socket.origin ∧ next.ticket = socket.ticket ∧
      next.arrivedAt = socket.arrivedAt := by
  simp only [advance] at h
  split at h
  case h_1 =>
    cases h
    rcases authenticate_cases settings w socket with
      ⟨phase, -, heq⟩ | ⟨userId, familyId, -, -, heq⟩
    · rw [heq]
      exact ⟨rfl, rfl, rfl⟩
    · rw [heq]
      exact ⟨rfl, rfl, rfl⟩
  all_goals (try split at h) <;> cases h <;> exact ⟨rfl, rfl, rfl⟩

theorem advance_identity {w : World} {socket next : Socket} {act : Act}
    (h : advance settings w socket act socket.phase = some next) :
    (next.admission = socket.admission ∧
      ∀ identity, next.phase.identity = some identity →
        socket.phase.identity = some identity) ∨
    (∃ userId familyId, act = .authenticate ∧ socket.phase = .arrived ∧
      originAllowed settings socket.origin = true ∧
      (consumeTicket settings w.redis w.now socket.ticket).1 = some (userId, familyId) ∧
      next.admission = some (⟨userId, familyId⟩, w.now) ∧
      next.phase = .readingUser ⟨userId, familyId⟩) := by
  simp only [advance] at h
  split at h
  case h_1 hphase =>
    cases h
    rcases authenticate_cases settings w socket with
      ⟨phase, hnone, heq⟩ | ⟨userId, familyId, horigin, hconsumed, heq⟩
    · refine .inl ⟨by rw [heq]; rfl, fun identity hidentity => ?_⟩
      rw [heq] at hidentity
      exact absurd (hnone.symm.trans hidentity) (by simp)
    · rw [heq]
      exact .inr ⟨userId, familyId, rfl, hphase, horigin, hconsumed, rfl, rfl⟩
  all_goals
    rename_i hphase
    (try split at h) <;> cases h <;> refine .inl ⟨rfl, fun identity hidentity => ?_⟩ <;>
      simp_all [Phase.identity, Socket.enter]

end Handler

section Steps

variable {settings : Settings}

def World.issue (w : World) (ticket : Tokens.UrlsafeToken) (userId familyId : Tokens.UuidValue) :
    Issue :=
  ⟨ticket, userId, familyId, w.now⟩

theorem now_of_step {w w' : World} {event : Event} (h : step settings w event = some w') :
    w.now ≤ w'.now := by
  cases event with
  | tick later =>
      obtain ⟨hle, rfl⟩ := step_tick h
      exact hle
  | act i act =>
      obtain ⟨socket, next, -, -, rfl⟩ := step_act h
      exact Int.le_refl _
  | _ =>
      cases h
      exact Int.le_refl _

theorem issued_of_step {w w' : World} {event : Event} (h : step settings w event = some w') :
    w'.issued = w.issued ∨
      ∃ ticket userId familyId, event = .issue ticket userId familyId ∧
        w'.issued = w.issued ++ [w.issue ticket userId familyId] := by
  cases event with
  | tick later =>
      obtain ⟨-, rfl⟩ := step_tick h
      exact .inl rfl
  | act i act =>
      obtain ⟨socket, next, -, -, rfl⟩ := step_act h
      exact .inl rfl
  | issue ticket userId familyId =>
      cases h
      exact .inr ⟨ticket, userId, familyId, rfl, rfl⟩
  | _ =>
      cases h
      exact .inl rfl

theorem issued_mono {w w' : World} {event : Event} (h : step settings w event = some w')
    {issue : Issue} (hissue : issue ∈ w.issued) : issue ∈ w'.issued := by
  rcases issued_of_step h with heq | ⟨ticket, userId, familyId, -, heq⟩
  · rwa [heq]
  · rw [heq]
    exact List.mem_append_left _ hissue

theorem redis_of_step {w w' : World} {event : Event} (h : step settings w event = some w')
    (key : String) :
    w'.redis key = w.redis key ∨ w'.redis key = none ∨
      ∃ ticket userId familyId, event = .issue ticket userId familyId ∧
        key = settings.store.key ticket.value ∧
        w'.redis key = some ((w.issue ticket userId familyId).entry settings) := by
  cases event with
  | tick later =>
      obtain ⟨-, rfl⟩ := step_tick h
      exact .inl rfl
  | act i act =>
      obtain ⟨socket, next, -, -, rfl⟩ := step_act h
      rcases redisAfter_cases settings w socket act key with heq | heq
      · exact .inl heq
      · exact .inr (.inl heq)
  | issue ticket userId familyId =>
      cases h
      by_cases hkey : key = settings.store.key ticket.value
      · subst hkey
        exact .inr (.inr ⟨ticket, userId, familyId, rfl, rfl, Function.update_self _ _ _⟩)
      · exact .inl (Function.update_of_ne hkey _ _)
  | _ =>
      cases h
      exact .inl rfl

end Steps

section Invariant

variable (settings : Settings)

def FreshTickets (w : World) : Event → Prop
  | .issue ticket _ _ =>
      ∀ issue ∈ w.issued, issue.digest settings ≠ settings.store.digest ticket.value
  | _ => True

instance (w : World) : (event : Event) → Decidable (FreshTickets settings w event)
  | .issue ticket _ _ =>
      inferInstanceAs (Decidable (∀ issue ∈ w.issued,
        issue.digest settings ≠ settings.store.digest ticket.value))
  | .tick _ => .isTrue trivial
  | .setUser _ _ => .isTrue trivial
  | .setFamily _ _ => .isTrue trivial
  | .arrive _ _ => .isTrue trivial
  | .act _ _ => .isTrue trivial

def Socket.presents (socket : Socket) (digest : String) : Prop :=
  ∃ text, socket.ticket = some text ∧ settings.store.digest text = digest

structure Admission (w : World) (socket : Socket) (issue : Issue) (identity : Identity)
    (consumedAt : Int) : Prop where
  origin : originAllowed settings socket.origin = true
  issued : issue ∈ w.issued
  ticket : socket.presents settings (issue.digest settings)
  identity : identity = ⟨issue.userId.val, issue.familyId.val⟩
  notBefore : issue.issuedAt ≤ consumedAt
  inTime : consumedAt < issue.issuedAt + settings.store.ttlSeconds * 1000000

def Identified (w : World) : Prop :=
  ∀ (i : Nat) (socket : Socket) (identity : Identity), w.sockets[i]? = some socket →
    socket.phase.identity = some identity →
      ∃ consumedAt, socket.admission = some (identity, consumedAt)

structure Consistent (w : World) : Prop where
  entries : ∀ key entry, w.redis key = some entry →
    ∃ issue ∈ w.issued, key = settings.store.key issue.ticket.value ∧
      entry = issue.entry settings
  past : ∀ issue ∈ w.issued, issue.issuedAt ≤ w.now
  admissions : ∀ (i : Nat) (socket : Socket) (identity : Identity) (consumedAt : Int),
    w.sockets[i]? = some socket → socket.admission = some (identity, consumedAt) →
      ∃ issue, Admission settings w socket issue identity consumedAt ∧
        w.redis (settings.store.key issue.ticket.value) = none
  identities : Identified w
  once : ∀ (i j : Nat) (socket other : Socket) (digest : String), w.sockets[i]? = some socket →
    w.sockets[j]? = some other → socket.admission ≠ none → other.admission ≠ none →
      socket.presents settings digest → other.presents settings digest → i = j

variable {settings}

theorem Admission.mono {w w' : World} {event : Event} (h : step settings w event = some w')
    {socket : Socket} {issue : Issue} {identity : Identity} {consumedAt : Int}
    (hadmission : Admission settings w socket issue identity consumedAt) :
    Admission settings w' socket issue identity consumedAt :=
  { hadmission with issued := issued_mono h hadmission.issued }

theorem Admission.request {w : World} {socket next : Socket} {act : Act}
    (h : advance settings w socket act socket.phase = some next) {issue : Issue}
    {identity : Identity} {consumedAt : Int}
    (hadmission : Admission settings w socket issue identity consumedAt) :
    Admission settings w next issue identity consumedAt := by
  obtain ⟨horigin, hticket, -⟩ := advance_request h
  refine { hadmission with origin := ?_, ticket := ?_ }
  · rw [horigin]
    exact hadmission.origin
  · obtain ⟨text, htext, hdigest⟩ := hadmission.ticket
    exact ⟨text, hticket.trans htext, hdigest⟩

theorem consistent_start (now : Int) (users : Nat → Option User) (families : Nat → Bool) :
    Consistent settings (start now users families) where
  entries key entry h := by cases h
  past issue h := by cases h
  admissions i socket identity consumedAt h := by cases h
  identities i socket identity h := by cases h
  once i j socket other digest h := by cases h

theorem entries_of_step {w w' : World} {event : Event} (h : step settings w event = some w')
    (hw : Consistent settings w) (key : String) (entry : Entry)
    (hentry : w'.redis key = some entry) :
    ∃ issue ∈ w'.issued, key = settings.store.key issue.ticket.value ∧
      entry = issue.entry settings := by
  rcases redis_of_step h key with heq | heq | ⟨ticket, userId, familyId, rfl, rfl, heq⟩
  · rw [heq] at hentry
    obtain ⟨issue, hissue, hkey, hvalue⟩ := hw.entries key entry hentry
    exact ⟨issue, issued_mono h hissue, hkey, hvalue⟩
  · rw [heq] at hentry
    cases hentry
  · rw [heq] at hentry
    cases h
    exact ⟨w.issue ticket userId familyId, List.mem_append_right _ (List.mem_singleton_self _),
      rfl, (Option.some.inj hentry).symm⟩

theorem past_of_step {w w' : World} {event : Event} (h : step settings w event = some w')
    (hw : Consistent settings w) : ∀ issue ∈ w'.issued, issue.issuedAt ≤ w'.now := by
  intro issue hissue
  have hnow := now_of_step h
  rcases issued_of_step h with heq | ⟨ticket, userId, familyId, rfl, heq⟩
  · rw [heq] at hissue
    exact Int.le_trans (hw.past issue hissue) hnow
  · rw [heq] at hissue
    rcases List.mem_append.mp hissue with hold | hnew
    · exact Int.le_trans (hw.past issue hold) hnow
    · rw [List.mem_singleton.mp hnew]
      exact hnow

theorem gone_of_step {w w' : World} {event : Event} (h : step settings w event = some w')
    (hfresh : FreshTickets settings w event) {issue : Issue} (hissue : issue ∈ w.issued)
    (hgone : w.redis (settings.store.key issue.ticket.value) = none) :
    w'.redis (settings.store.key issue.ticket.value) = none := by
  rcases redis_of_step h (settings.store.key issue.ticket.value) with
    heq | heq | ⟨ticket, userId, familyId, hevent, hkey, -⟩
  · rw [heq]
    exact hgone
  · exact heq
  · subst hevent
    exact absurd (Tickets.digest_of_key hkey) (hfresh issue hissue)

theorem admission_of_consumed {w : World} (hw : Consistent settings w) {socket next : Socket}
    {act : Act} (h : advance settings w socket act socket.phase = some next)
    {userId familyId : Nat} (hact : act = .authenticate)
    (horigin : originAllowed settings socket.origin = true)
    (hconsumed :
      (consumeTicket settings w.redis w.now socket.ticket).1 = some (userId, familyId)) :
    ∃ issue, Admission settings w next issue ⟨userId, familyId⟩ w.now ∧
      w.redis (settings.store.key issue.ticket.value) ≠ none ∧
      redisAfter settings w socket act (settings.store.key issue.ticket.value) = none := by
  obtain ⟨text, entry, htext, hentry, hlive, hvalue, hgone⟩ := consumeTicket_some hconsumed
  obtain ⟨issue, hissue, hkey, rfl⟩ := hw.entries _ entry hentry
  rw [Issue.entry, Tickets.parseTicketValue_ticketValue] at hvalue
  obtain ⟨huser, hfamily⟩ := Prod.mk.inj (Option.some.inj hvalue)
  obtain ⟨hsame, hticket, -⟩ := advance_request h
  refine ⟨issue, ⟨hsame ▸ horigin, hissue, ?_, ?_, hw.past issue hissue, hlive⟩, ?_, ?_⟩
  · exact ⟨text, hticket.trans htext, Tickets.digest_of_key hkey⟩
  · rw [huser, hfamily]
  · rw [← hkey, hentry]
    nofun
  · rw [hact, redisAfter, if_pos horigin, ← hkey]
    exact hgone

theorem admitted_of_step {w w' : World} {event : Event} (h : step settings w event = some w')
    (hw : Consistent settings w) {i : Nat} {socket : Socket}
    (hsocket : w'.sockets[i]? = some socket) {identity : Identity} {consumedAt : Int}
    (hadmission : socket.admission = some (identity, consumedAt)) :
    (∃ before, w.sockets[i]? = some before ∧ before.admission = socket.admission ∧
      before.origin = socket.origin ∧ before.ticket = socket.ticket) ∨
    (∃ act issue, event = .act i act ∧ Admission settings w socket issue identity consumedAt ∧
      w.redis (settings.store.key issue.ticket.value) ≠ none ∧
      w'.redis (settings.store.key issue.ticket.value) = none) := by
  rcases sockets_of_step h hsocket with
    hold | ⟨before, act, hevent, hbefore, hnext, hw'⟩ | ⟨origin, ticket, -, -, rfl⟩
  · exact .inl ⟨socket, hold, rfl, rfl, rfl⟩
  · rcases advance_identity hnext with
      ⟨hsame, -⟩ | ⟨userId, familyId, hact, -, horigin, hconsumed, hnew, -⟩
    · obtain ⟨horigin, hticket, -⟩ := advance_request hnext
      exact .inl ⟨before, hbefore, hsame.symm, horigin.symm, hticket.symm⟩
    · rw [hnew] at hadmission
      cases hadmission
      obtain ⟨issue, hissue, hsome, hnone⟩ :=
        admission_of_consumed hw hnext hact horigin hconsumed
      exact .inr ⟨act, issue, hevent, hissue, hsome, by rw [hw']; exact hnone⟩
  · cases hadmission

theorem admissions_of_step {w w' : World} {event : Event} (h : step settings w event = some w')
    (hfresh : FreshTickets settings w event) (hw : Consistent settings w) (i : Nat)
    (socket : Socket) (identity : Identity) (consumedAt : Int)
    (hsocket : w'.sockets[i]? = some socket)
    (hadmission : socket.admission = some (identity, consumedAt)) :
    ∃ issue, Admission settings w' socket issue identity consumedAt ∧
      w'.redis (settings.store.key issue.ticket.value) = none := by
  rcases admitted_of_step h hw hsocket hadmission with
    ⟨before, hbefore, hsame, horigin, hticket⟩ | ⟨act, issue, -, hissue, -, hgone⟩
  · obtain ⟨issue, hissue, hgone⟩ :=
      hw.admissions i before identity consumedAt hbefore (hsame.trans hadmission)
    have hkept : Admission settings w socket issue identity consumedAt := by
      obtain ⟨text, htext, hdigest⟩ := hissue.ticket
      exact { hissue with
        origin := horigin ▸ hissue.origin
        ticket := ⟨text, hticket ▸ htext, hdigest⟩ }
    exact ⟨issue, hkept.mono h, gone_of_step h hfresh hissue.issued hgone⟩
  · exact ⟨issue, hissue.mono h, hgone⟩

theorem identified_of_step {w w' : World} {event : Event} (h : step settings w event = some w')
    (hw : Identified w) : Identified w' := by
  intro i socket identity hsocket hidentity
  rcases sockets_of_step h hsocket with
    hold | ⟨before, act, -, hbefore, hnext, -⟩ | ⟨origin, ticket, -, -, rfl⟩
  · exact hw i socket identity hold hidentity
  · rcases advance_identity hnext with
      ⟨hsame, hphase⟩ | ⟨userId, familyId, -, -, -, -, hnew, hphase⟩
    · rw [hsame]
      exact hw i before identity hbefore (hphase identity hidentity)
    · rw [hphase] at hidentity
      cases hidentity
      exact ⟨w.now, hnew⟩
  · cases hidentity

theorem consumed_apart {w : World} (hw : Consistent settings w) {j : Nat} {before other : Socket}
    (hbefore : w.sockets[j]? = some before) (hsame : before.admission = other.admission)
    (hticket : before.ticket = other.ticket) (hadmitted : other.admission ≠ none)
    {socket : Socket} {issue : Issue} {identity : Identity} {consumedAt : Int}
    (hissue : Admission settings w socket issue identity consumedAt)
    (hsome : w.redis (settings.store.key issue.ticket.value) ≠ none) {digest : String}
    (hsocket : socket.presents settings digest) (hother : other.presents settings digest) :
    False := by
  obtain ⟨⟨identity', consumedAt'⟩, hadmission⟩ := Option.ne_none_iff_exists'.mp hadmitted
  obtain ⟨issue', hissue', hgone⟩ :=
    hw.admissions j before identity' consumedAt' hbefore (hsame.trans hadmission)
  obtain ⟨text, htext, hdigest⟩ := hsocket
  obtain ⟨text', htext', hdigest'⟩ := hother
  obtain ⟨text1, htext1, hdigest1⟩ := hissue.ticket
  obtain ⟨text2, htext2, hdigest2⟩ := hissue'.ticket
  have hfirst : text = text1 := Option.some.inj (htext.symm.trans htext1)
  have hsecond : text' = text2 := Option.some.inj ((htext'.symm.trans hticket.symm).trans htext2)
  have hkeys : settings.store.key issue.ticket.value = settings.store.key issue'.ticket.value := by
    apply key_eq_iff.mpr
    calc settings.store.digest issue.ticket.value
        = settings.store.digest text1 := hdigest1.symm
      _ = settings.store.digest text' := by rw [← hfirst, hdigest, hdigest']
      _ = settings.store.digest issue'.ticket.value := by rw [hsecond]; exact hdigest2
  rw [hkeys] at hsome
  exact hsome hgone

theorem once_of_step {w w' : World} {event : Event} (h : step settings w event = some w')
    (hw : Consistent settings w) (i j : Nat) (socket other : Socket) (digest : String)
    (hsocket : w'.sockets[i]? = some socket) (hother : w'.sockets[j]? = some other)
    (hadmitted : socket.admission ≠ none) (hadmitted' : other.admission ≠ none)
    (hpresents : socket.presents settings digest) (hpresents' : other.presents settings digest) :
    i = j := by
  obtain ⟨⟨identity, consumedAt⟩, hadmission⟩ := Option.ne_none_iff_exists'.mp hadmitted
  obtain ⟨⟨identity', consumedAt'⟩, hadmission'⟩ := Option.ne_none_iff_exists'.mp hadmitted'
  rcases admitted_of_step h hw hsocket hadmission with
    ⟨before, hbefore, hsame, -, hticket⟩ | ⟨act, issue, hevent, hissue, hsome, -⟩ <;>
    rcases admitted_of_step h hw hother hadmission' with
      ⟨before', hbefore', hsame', -, hticket'⟩ | ⟨act', issue', hevent', hissue', hsome', -⟩
  · refine hw.once i j before before' digest hbefore hbefore' ?_ ?_ ?_ ?_
    · rwa [hsame]
    · rwa [hsame']
    · obtain ⟨text, htext, hdigest⟩ := hpresents
      exact ⟨text, hticket.trans htext, hdigest⟩
    · obtain ⟨text, htext, hdigest⟩ := hpresents'
      exact ⟨text, hticket'.trans htext, hdigest⟩
  · exact (consumed_apart hw hbefore hsame hticket hadmitted hissue' hsome' hpresents'
      hpresents).elim
  · exact (consumed_apart hw hbefore' hsame' hticket' hadmitted' hissue hsome hpresents
      hpresents').elim
  · rw [hevent] at hevent'
    cases hevent'
    rfl

theorem consistent_of_step {w w' : World} {event : Event} (h : step settings w event = some w')
    (hfresh : FreshTickets settings w event) (hw : Consistent settings w) :
    Consistent settings w' where
  entries := entries_of_step h hw
  past := past_of_step h hw
  admissions := admissions_of_step h hfresh hw
  identities := identified_of_step h hw.identities
  once := once_of_step h hw

end Invariant

section Runs

variable {settings : Settings}

structure TicketsAdmitOnce (settings : Settings) (w : World) : Prop where
  admitted : ∀ (i : Nat) (socket : Socket) (identity : Identity), w.sockets[i]? = some socket →
    socket.phase.identity = some identity → ∃ issue consumedAt,
      socket.admission = some (identity, consumedAt) ∧
        Admission settings w socket issue identity consumedAt
  once : ∀ (i j : Nat) (socket other : Socket) (digest : String), w.sockets[i]? = some socket →
    w.sockets[j]? = some other → socket.admission ≠ none → other.admission ≠ none →
      socket.presents settings digest → other.presents settings digest → i = j

theorem consistent_run {now : Int} {users : Nat → Option User} {families : Nat → Bool}
    {w : World}
    (h : Transition.Run (step settings) (FreshTickets settings) (start now users families) w) :
    Consistent settings w :=
  h.invariant (fun _ _ _ hw hfresh hstep => consistent_of_step hstep hfresh hw)
    (consistent_start now users families)

theorem tickets_admit_once {now : Int} {users : Nat → Option User} {families : Nat → Bool}
    {w : World}
    (h : Transition.Run (step settings) (FreshTickets settings) (start now users families) w) :
    TicketsAdmitOnce settings w where
  admitted i socket identity hsocket hidentity := by
    obtain ⟨consumedAt, hadmission⟩ :=
      (consistent_run h).identities i socket identity hsocket hidentity
    obtain ⟨issue, hissue, -⟩ :=
      (consistent_run h).admissions i socket identity consumedAt hsocket hadmission
    exact ⟨issue, consumedAt, hadmission, hissue⟩
  once := (consistent_run h).once

def deployed : Settings where
  store :=
    { keyPrefix := "ai_soc:realtime"
      ttlSeconds := 60
      digest := fun ticket =>
        if ticket = "q3Vb9kZt" then
          "171e2bc96a0d4deb91066d7e3797210c1ad8c13a654c2ffbb072c0c24db43e7e"
        else if ticket = "Lw0c_7Rm" then
          "a983832d27e693cfec729e6e8ec7b5dfac5c6cb25d958264d951b92b470e4e58"
        else ticket }
  realtimeAllowedOrigins := ["http://localhost:5173"]
  realtimeMaxConnections := 1
  realtimeHeartbeatSeconds := 20

theorem firstTicket_nonempty : "q3Vb9kZt" ≠ "" := by decide

theorem firstTicket_urlsafe : ∀ c ∈ "q3Vb9kZt".toList, Tokens.isUrlsafe c = true :=
  List.all_eq_true.mp (by decide)

def firstTicket : Tokens.UrlsafeToken :=
  ⟨"q3Vb9kZt", firstTicket_nonempty, firstTicket_urlsafe⟩

theorem secondTicket_nonempty : "Lw0c_7Rm" ≠ "" := by decide

theorem secondTicket_urlsafe : ∀ c ∈ "Lw0c_7Rm".toList, Tokens.isUrlsafe c = true :=
  List.all_eq_true.mp (by decide)

def secondTicket : Tokens.UrlsafeToken :=
  ⟨"Lw0c_7Rm", secondTicket_nonempty, secondTicket_urlsafe⟩

def opening : World :=
  start 0 (fun userId => if userId = 7 then some ⟨true, .analyst⟩ else none)
    fun familyId => decide (familyId = 9)

def admitted (i : Nat) : List Event :=
  [.act i .authenticate, .act i .readUser, .act i .readFamily, .act i .connect, .act i .accept,
    .act i .startHeartbeat]

def firstIssue : Event :=
  .issue firstTicket 7 9

def presentedTwice : List Event :=
  [firstIssue, .issue secondTicket 7 9,
    .arrive (some "http://localhost:5173") (some "q3Vb9kZt"), .arrive none (some "q3Vb9kZt")] ++
      admitted 0 ++ [.act 1 .authenticate, .act 1 .connect]

theorem presentedTwice_run :
    ∃ w, Transition.Run (step deployed) (FreshTickets deployed) opening w ∧
      w.sockets.map Socket.phase =
        [.serving ⟨7, 9⟩ .sleeping, .closed 4401 "Invalid realtime ticket"] := by
  obtain ⟨w, hrun, hphases⟩ := @Transition.run_of_execWhile_any _ _ (step deployed)
    (fun w event => decide (FreshTickets deployed w event)) presentedTwice opening
    (fun w => decide (w.sockets.map Socket.phase =
      [.serving ⟨7, 9⟩ .sleeping, .closed 4401 "Invalid realtime ticket"])) (by decide)
  exact ⟨w, hrun.mono fun _ _ h => of_decide_eq_true h, of_decide_eq_true hphases⟩

theorem ticket_admits_first :
    ∃ w, w.sockets.map Socket.phase =
        [.serving ⟨7, 9⟩ .sleeping, .closed 4401 "Invalid realtime ticket"] ∧
      TicketsAdmitOnce deployed w := by
  obtain ⟨w, hrun, hphases⟩ := presentedTwice_run
  exact ⟨w, hphases, tickets_admit_once hrun⟩

end Runs

end Sockets
