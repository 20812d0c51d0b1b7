import AiSoc.Library.Transition
import AiSoc.Realtime.Tickets

namespace Sockets

open Permissions (RoleName permissionsForRole)
open Tickets (RealtimeTicketStore Redis)
open Tokens (UuidValue UrlsafeToken)

section Database

structure User where
  isActive : Bool
  roleName : RoleName

structure Identity where
  userId : Nat
  familyId : Nat
  deriving DecidableEq

-- user is None, user.is_active and the SOC_READ permission
def permitted : Option User → Bool
  | none => false
  | some user => user.isActive && decide (.socRead ∈ permissionsForRole user.roleName)

end Database

section Handler

structure Settings where
  store : RealtimeTicketStore
  realtimeAllowedOrigins : List String
  realtimeMaxConnections : Nat
  realtimeHeartbeatSeconds : Nat

-- where the task of _heartbeat stands; checked holds what it read, not yet acted upon
inductive Heartbeat where
  | created
  | sleeping
  | readingUser
  | readingFamily (user : Bool)
  | checked (allowed : Bool)
  | stopped
  deriving DecidableEq

-- where the handler of a socket stands; answered is what authenticate_ticket gave
inductive Phase where
  | arrived
  | readingUser (identity : Identity)
  | readingFamily (identity : Identity)
  | answered (identity : Option Identity)
  | accepting (identity : Identity)
  | serving (identity : Identity) (heartbeat : Heartbeat)
  | revoked (identity : Identity)
  | leaving
  | closed (code : Nat) (reason : String)
  | ended
  deriving DecidableEq

-- since is when the phase began; admission is what the ticket stood for and when it was consumed;
-- faulted says that the task of the heartbeat has raised
structure Socket where
  origin : Option String
  ticket : Option String
  arrivedAt : Int
  phase : Phase
  since : Int
  admission : Option (Identity × Int)
  faulted : Bool

def Socket.enter (socket : Socket) (now : Int) (phase : Phase) : Socket :=
  { socket with phase := phase, since := now }

def arriving (now : Int) (origin ticket : Option String) : Socket :=
  { origin := origin, ticket := ticket, arrivedAt := now, phase := .arrived, since := now,
    admission := none, faulted := false }

structure Issue where
  ticket : UrlsafeToken
  userId : UuidValue
  familyId : UuidValue
  issuedAt : Int

structure Frame where
  socket : Nat
  identity : Identity
  sentAt : Int

-- sockets are named by their place; connections is what the manager holds; issued and sent
-- are the history of the tickets and of the frames
structure World where
  now : Int
  redis : Redis
  users : Nat → Option User
  families : Nat → Bool
  sockets : List Socket
  connections : List Nat
  issued : List Issue
  sent : List Frame

inductive Act where
  | authenticate
  | readUser
  | readFamily
  | connect
  | accept
  | startHeartbeat
  | wake
  | pulseUser
  | pulseFamily
  | resume
  | send
  | fault
  | leave
  | disconnect
  deriving DecidableEq

variable (settings : Settings)

def originAllowed (origin : Option String) : Bool :=
  match origin with
  | none => true
  | some origin => decide (origin ∈ settings.realtimeAllowedOrigins)

-- the part of authenticate_ticket that talks to Redis; an empty ticket is not looked up
def consumeTicket (redis : Redis) (now : Int) (ticket : Option String) :
    Option (Nat × Nat) × Redis :=
  match ticket with
  | none => (none, redis)
  | some ticket => if ticket = "" then (none, redis) else settings.store.consume redis now ticket

def Socket.authenticate (w : World) (socket : Socket) : Socket :=
  if originAllowed settings socket.origin then
    match (consumeTicket settings w.redis w.now socket.ticket).1 with
    | none => socket.enter w.now (.answered none)
    | some (userId, familyId) =>
        { socket.enter w.now (.readingUser ⟨userId, familyId⟩) with
          admission := some (⟨userId, familyId⟩, w.now) }
  else socket.enter w.now (.closed 4403 "Origin not allowed")

def heartbeatMicroseconds : Int :=
  settings.realtimeHeartbeatSeconds * 1000000

-- one stretch of a handler, or of its heartbeat, between two awaits
def advance (w : World) (socket : Socket) : Act → Phase → Option Socket
  | .authenticate, .arrived => some (socket.authenticate settings w)
  | .readUser, .readingUser identity =>
      some (socket.enter w.now
        (if permitted (w.users identity.userId) then .readingFamily identity else .answered none))
  | .readFamily, .readingFamily identity =>
      some (socket.enter w.now
        (.answered (if w.families identity.familyId then some identity else none)))
  | .connect, .answered none => some (socket.enter w.now (.closed 4401 "Invalid realtime ticket"))
  | .connect, .answered (some identity) =>
      some (socket.enter w.now
        (if settings.realtimeMaxConnections ≤ w.connections.length then
          .closed 1013 "Realtime capacity reached"
        else .accepting identity))
  | .accept, .accepting identity => some (socket.enter w.now (.serving identity .created))
  | .startHeartbeat, .serving identity .created =>
      some (socket.enter w.now (.serving identity .sleeping))
  | .wake, .serving identity .sleeping =>
      if socket.since + heartbeatMicroseconds settings ≤ w.now then
        some (socket.enter w.now (.serving identity .readingUser))
      else none
  | .pulseUser, .serving identity .readingUser =>
      some (socket.enter w.now
        (.serving identity (.readingFamily (permitted (w.users identity.userId)))))
  | .pulseFamily, .serving identity (.readingFamily user) =>
      some (socket.enter w.now
        (.serving identity (.checked (user && w.families identity.familyId))))
  | .resume, .serving identity (.checked allowed) =>
      some (socket.enter w.now (if allowed then .serving identity .sleeping else .revoked identity))
  | .send, .serving _ _ => some socket
  -- an exception ends the handler before it serves, and later the task of the heartbeat alone
  | .fault, .arrived => some (socket.enter w.now .ended)
  | .fault, .readingUser _ => some (socket.enter w.now .ended)
  | .fault, .readingFamily _ => some (socket.enter w.now .ended)
  | .fault, .answered _ => some (socket.enter w.now .ended)
  | .fault, .accepting _ => some (socket.enter w.now .ended)
  | .fault, .serving identity .readingUser =>
      some { socket.enter w.now (.serving identity .stopped) with faulted := true }
  | .fault, .serving identity (.readingFamily _) =>
      some { socket.enter w.now (.serving identity .stopped) with faulted := true }
  | .fault, .serving identity (.checked _) =>
      some { socket.enter w.now (.serving identity .stopped) with faulted := true }
  | .leave, .serving _ _ => some (socket.enter w.now .leaving)
  | .leave, .revoked _ => some (socket.enter w.now .leaving)
  | .disconnect, .leaving => some (socket.enter w.now .ended)
  | _, _ => none

end Handler

section Steps

inductive Event where
  | tick (later : Int)
  | setUser (userId : Nat) (user : Option User)
  | setFamily (familyId : Nat) (active : Bool)
  | issue (ticket : UrlsafeToken) (userId familyId : UuidValue)
  | arrive (origin ticket : Option String)
  | act (socket : Nat) (act : Act)

variable (settings : Settings)

-- what a stretch of socket i does outside the socket
def redisAfter (w : World) (socket : Socket) : Act → Redis
  | .authenticate =>
      if originAllowed settings socket.origin then
        (consumeTicket settings w.redis w.now socket.ticket).2
      else w.redis
  | _ => w.redis

def connectionsAfter (connections : List Nat) (i : Nat) : Act → List Nat
  | .accept => connections ++ [i]
  | .disconnect => connections.filter (· ≠ i)
  | _ => connections

def sentAfter (w : World) (i : Nat) : Act → Phase → List Frame
  | .send, .serving identity _ => w.sent ++ [⟨i, identity, w.now⟩]
  | _, _ => w.sent

def World.perform (w : World) (i : Nat) (act : Act) (socket next : Socket) : World :=
  { w with
    redis := redisAfter settings w socket act
    sockets := w.sockets.set i next
    connections := connectionsAfter w.connections i act
    sent := sentAfter w i act socket.phase }

def step (w : World) : Event → Option World
  | .tick later => if w.now ≤ later then some { w with now := later } else none
  | .setUser userId user => some { w with users := Function.update w.users userId user }
  | .setFamily familyId active =>
      some { w with families := Function.update w.families familyId active }
  | .issue ticket userId familyId =>
      some { w with
        redis := (settings.store.issue w.redis w.now ticket userId familyId).2
        issued := w.issued ++ [⟨ticket, userId, familyId, w.now⟩] }
  | .arrive origin ticket =>
      some { w with sockets := w.sockets ++ [arriving w.now origin ticket] }
  | .act i act =>
      (w.sockets[i]?).bind fun socket =>
        (advance settings w socket act socket.phase).map fun next =>
          w.perform settings i act socket next

def start (now : Int) (users : Nat → Option User) (families : Nat → Bool) : World :=
  { now := now, redis := fun _ => none, users := users, families := families, sockets := [],
    connections := [], issued := [], sent := [] }

end Steps

section StepLemmas

variable {settings : Settings}

theorem step_act {w w' : World} {i : Nat} {act : Act} (h : step settings w (.act i act) = some w') :
    ∃ socket next, w.sockets[i]? = some socket ∧
      advance settings w socket act socket.phase = some next ∧
      w' = w.perform settings i act socket next := by
  obtain ⟨socket, hsocket, h⟩ := Option.bind_eq_some_iff.mp h
  obtain ⟨next, hnext, h⟩ := Option.map_eq_some_iff.mp h
  exact ⟨socket, next, hsocket, hnext, h.symm⟩

theorem step_tick {w w' : World} {later : Int} (h : step settings w (.tick later) = some w') :
    w.now ≤ later ∧ w' = { w with now := later } := by
  simp only [step] at h
  split at h
  · rename_i hle
    exact ⟨hle, (Option.some.inj h).symm⟩
  · cases h

theorem sockets_of_step {w w' : World} {event : Event} (h : step settings w event = some w')
    {i : Nat} {socket : Socket} (hsocket : w'.sockets[i]? = some socket) :
    w.sockets[i]? = some socket ∨
      (∃ (before : Socket) (act : Act), event = .act i act ∧ w.sockets[i]? = some before ∧
        advance settings w before act before.phase = some socket ∧
        w' = w.perform settings i act before socket) ∨
      (∃ origin ticket, i = w.sockets.length ∧ event = .arrive origin ticket ∧
        socket = arriving w.now origin ticket) := by
  cases event with
  | tick later =>
      obtain ⟨-, rfl⟩ := step_tick h
      exact .inl hsocket
  | setUser userId user =>
      cases h
      exact .inl hsocket
  | setFamily familyId active =>
      cases h
      exact .inl hsocket
  | issue ticket userId familyId =>
      cases h
      exact .inl hsocket
  | arrive origin ticket =>
      cases h
      rcases Nat.lt_trichotomy i w.sockets.length with hlt | heq | hgt
      · rw [List.getElem?_append_left hlt] at hsocket
        exact .inl hsocket
      · rw [List.getElem?_append_right (Nat.le_of_eq heq.symm), heq, Nat.sub_self] at hsocket
        exact .inr (.inr ⟨origin, ticket, heq, rfl, (Option.some.inj hsocket).symm⟩)
      · rw [List.getElem?_eq_none (by
          rw [List.length_append, List.length_singleton]
          exact hgt)] at hsocket
        cases hsocket
  | act j act =>
      obtain ⟨before, next, hbefore, hnext, rfl⟩ := step_act h
      by_cases hij : j = i
      · subst hij
        have hset : (w.sockets.set j next)[j]? = some socket := hsocket
        rw [List.getElem?_set_self' , hbefore] at hset
        cases hset
        exact .inr (.inl ⟨before, act, rfl, hbefore, hnext, rfl⟩)
      · have hset : (w.sockets.set j next)[i]? = some socket := hsocket
        rw [List.getElem?_set_ne hij] at hset
        exact .inl hset

end StepLemmas

end Sockets
