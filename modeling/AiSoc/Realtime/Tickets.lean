import AiSoc.Security.Tokens
import Mathlib.Logic.Function.Basic

namespace Tickets

open Permissions (Timestamp)
open Tokens (UuidValue str UrlsafeToken HexToken)
open PyStr

section Redis

structure Entry where
  value : String
  expiresAt : Timestamp

abbrev Redis := String → Option Entry

def setex (redis : Redis) (now : Timestamp) (key : String) (seconds : Nat) (value : String) :
    Redis :=
  Function.update redis key (some ⟨value, now + seconds * 1000000⟩)

-- a key whose time has come is gone
def live (redis : Redis) (now : Timestamp) (key : String) : Option String :=
  ((redis key).filter fun entry => now < entry.expiresAt).map Entry.value

def getdel (redis : Redis) (now : Timestamp) (key : String) : Option String × Redis :=
  (live redis now key, Function.update redis key none)

theorem live_setex {redis : Redis} {now later : Timestamp} {key value : String} {seconds : Nat}
    (h : later < now + seconds * 1000000) :
    live (setex redis now key seconds value) later key = some value := by
  rw [live, setex, Function.update_self, Option.filter_some, if_pos (decide_eq_true h),
    Option.map_some]

end Redis

section Store

-- digest is the hex digest of SHA-256
structure RealtimeTicketStore where
  keyPrefix : String
  ttlSeconds : Nat
  digest : String → String

variable (store : RealtimeTicketStore)

def RealtimeTicketStore.key (ticket : String) : String :=
  String.ofList (store.keyPrefix.toList.rdropWhile (· = ':')) ++ ":ticket:" ++ store.digest ticket

def ticketValue (userId familyId : UuidValue) : String :=
  str userId ++ ":" ++ str familyId

def RealtimeTicketStore.issue (redis : Redis) (now : Timestamp) (ticket : UrlsafeToken)
    (userId familyId : UuidValue) : String × Redis :=
  (ticket.value,
    setex redis now (store.key ticket.value) store.ttlSeconds (ticketValue userId familyId))

def parseTicketValue (value : String) : Option (Nat × Nat) :=
  match split ':' 1 value.toList with
  | [userId, familyId] => do
      let userId ← uuid (String.ofList userId)
      let familyId ← uuid (String.ofList familyId)
      return (userId, familyId)
  | _ => none

def RealtimeTicketStore.consume (redis : Redis) (now : Timestamp) (ticket : String) :
    Option (Nat × Nat) × Redis :=
  let (value, redis) := getdel redis now (store.key ticket)
  match value with
  | none => (none, redis)
  | some "" => (none, redis)
  | some value => (parseTicketValue value, redis)

end Store

section Commands

variable (store : RealtimeTicketStore)

-- what reaches the store between two moments
inductive Command where
  | issue (ticket : UrlsafeToken) (userId familyId : UuidValue)
  | consume (ticket : String)

def Command.ticket : Command → String
  | .issue ticket _ _ => ticket.value
  | .consume ticket => ticket

def apply (redis : Redis) : Timestamp × Command → Redis
  | (now, .issue ticket userId familyId) => (store.issue redis now ticket userId familyId).2
  | (now, .consume ticket) => (store.consume redis now ticket).2

def applyAll (redis : Redis) (commands : List (Timestamp × Command)) : Redis :=
  commands.foldl (apply store) redis

variable {store}

theorem digest_of_key {ticket other : String} (h : store.key ticket = store.key other) :
    store.digest ticket = store.digest other := by
  have hlist := congrArg String.toList h
  simp only [RealtimeTicketStore.key, String.toList_append, List.append_assoc] at hlist
  exact String.toList_inj.mp (List.append_cancel_left (List.append_cancel_left hlist))

theorem consume_redis (redis : Redis) (now : Timestamp) (ticket : String) :
    (store.consume redis now ticket).2 = Function.update redis (store.key ticket) none := by
  simp only [RealtimeTicketStore.consume, getdel]
  split <;> rfl

theorem apply_other {redis : Redis} {call : Timestamp × Command} {key : String}
    (h : store.key call.2.ticket ≠ key) : apply store redis call key = redis key := by
  obtain ⟨now, command⟩ := call
  cases command with
  | issue ticket userId familyId =>
      rw [Command.ticket] at h
      simp only [apply, RealtimeTicketStore.issue, setex]
      rw [Function.update_of_ne (Ne.symm h)]
  | consume ticket =>
      rw [Command.ticket] at h
      rw [apply, consume_redis, Function.update_of_ne (Ne.symm h)]

theorem applyAll_other {redis : Redis} {calls : List (Timestamp × Command)} {key : String}
    (h : ∀ call ∈ calls, store.key call.2.ticket ≠ key) :
    applyAll store redis calls key = redis key := by
  induction calls generalizing redis with
  | nil => rfl
  | cons call calls ih =>
      have hrest : applyAll store (apply store redis call) calls key =
          apply store redis call key := ih fun c hc => h c (List.mem_cons_of_mem _ hc)
      rw [applyAll, List.foldl_cons]
      exact hrest.trans (apply_other (h call List.mem_cons_self))

end Commands

section RoundTrip

theorem parseTicketValue_ticketValue (userId familyId : UuidValue) :
    parseTicketValue (ticketValue userId familyId) = some (userId.val, familyId.val) := by
  have hcolon : ':' ∉ (str userId).toList := not_mem_uuidText (by decide) userId.val
  have htext : (ticketValue userId familyId).toList =
      (str userId).toList ++ ':' :: (str familyId).toList := by
    simp [ticketValue]
  have hsplit : split ':' 1 (ticketValue userId familyId).toList =
      [(str userId).toList, (str familyId).toList] := by
    rw [htext, split_append hcolon, split]
  have huser : uuid (str userId) = some userId.val := uuid_uuidText userId.isLt
  have hfamily : uuid (str familyId) = some familyId.val := uuid_uuidText familyId.isLt
  simp only [parseTicketValue, hsplit, String.ofList_toList, huser, hfamily]
  rfl

theorem ticketValue_ne_empty (userId familyId : UuidValue) : ticketValue userId familyId ≠ "" := by
  intro h
  have hlength := congrArg String.length h
  rw [ticketValue, String.length_append, String.length_append, str, length_uuidText,
    String.length_empty] at hlength
  omega

theorem consume_of_live {store : RealtimeTicketStore} {redis : Redis} {now : Timestamp}
    {ticket value : String} (hne : value ≠ "")
    (h : live redis now (store.key ticket) = some value) :
    (store.consume redis now ticket).1 = parseTicketValue value := by
  simp [RealtimeTicketStore.consume, getdel, h]

theorem consume_issued {store : RealtimeTicketStore} (redis : Redis)
    (issuedAt now : Timestamp) (ticket : UrlsafeToken) (userId familyId : UuidValue)
    (calls : List (Timestamp × Command))
    (hother : ∀ call ∈ calls, store.digest call.2.ticket ≠ store.digest ticket.value)
    (hlive : now < issuedAt + store.ttlSeconds * 1000000) :
    (store.consume (applyAll store (store.issue redis issuedAt ticket userId familyId).2 calls) now
      ticket.value).1 = some (userId.val, familyId.val) := by
  have hkeys : ∀ call ∈ calls, store.key call.2.ticket ≠ store.key ticket.value :=
    fun call hcall heq => hother call hcall (digest_of_key heq)
  have hvalue : live (applyAll store (store.issue redis issuedAt ticket userId familyId).2 calls)
      now (store.key ticket.value) = some (ticketValue userId familyId) := by
    rw [live, applyAll_other hkeys, ← live, RealtimeTicketStore.issue, live_setex hlive]
  rw [consume_of_live (ticketValue_ne_empty userId familyId) hvalue]
  exact parseTicketValue_ticketValue userId familyId

end RoundTrip

section Credentials

structure RoundTrips (store : RealtimeTicketStore) : Prop where
  refreshToken : ∀ (sessionId : UuidValue) (secret : UrlsafeToken),
    Auth.parseRefreshToken (Tokens.refreshToken sessionId secret) =
      some (sessionId.val, secret.value)
  apiKey : ∀ (keyPrefix : HexToken) (secret : UrlsafeToken),
    Tokens.parseApiKey (Tokens.apiKey keyPrefix secret) = some (keyPrefix.value, secret.value)
  ticket : ∀ (redis : Redis) (issuedAt now : Timestamp) (ticket : UrlsafeToken)
    (userId familyId : UuidValue) (calls : List (Timestamp × Command)),
    (∀ call ∈ calls, store.digest call.2.ticket ≠ store.digest ticket.value) →
      now < issuedAt + store.ttlSeconds * 1000000 →
      (store.consume (applyAll store (store.issue redis issuedAt ticket userId familyId).2 calls)
        now (store.issue redis issuedAt ticket userId familyId).1).1 =
          some (userId.val, familyId.val)
  refreshTokens : ∀ (sessionId sessionId' : UuidValue) (secret secret' : UrlsafeToken),
    Auth.parseRefreshToken (Tokens.refreshToken sessionId secret) =
      Auth.parseRefreshToken (Tokens.refreshToken sessionId' secret') →
      Tokens.refreshToken sessionId secret = Tokens.refreshToken sessionId' secret'
  apiKeys : ∀ (keyPrefix keyPrefix' : HexToken) (secret secret' : UrlsafeToken),
    Tokens.parseApiKey (Tokens.apiKey keyPrefix secret) =
      Tokens.parseApiKey (Tokens.apiKey keyPrefix' secret') →
      Tokens.apiKey keyPrefix secret = Tokens.apiKey keyPrefix' secret'
  ticketValues : ∀ (userId userId' familyId familyId' : UuidValue),
    parseTicketValue (ticketValue userId familyId) =
      parseTicketValue (ticketValue userId' familyId') →
      ticketValue userId familyId = ticketValue userId' familyId'

theorem credentials_round_trip (store : RealtimeTicketStore) : RoundTrips store where
  refreshToken := Tokens.parseRefreshToken_refreshToken
  apiKey := Tokens.parseApiKey_apiKey
  ticket redis issuedAt now ticket userId familyId calls hother hlive :=
    consume_issued redis issuedAt now ticket userId familyId calls hother hlive
  refreshTokens sessionId sessionId' secret secret' h := by
    rw [Tokens.parseRefreshToken_refreshToken, Tokens.parseRefreshToken_refreshToken] at h
    obtain ⟨hid, hsecret⟩ := Prod.mk.inj (Option.some.inj h)
    rw [Tokens.refreshToken, Tokens.refreshToken, Fin.ext hid, hsecret]
  apiKeys keyPrefix keyPrefix' secret secret' h := by
    rw [Tokens.parseApiKey_apiKey, Tokens.parseApiKey_apiKey] at h
    obtain ⟨hkeyPrefix, hsecret⟩ := Prod.mk.inj (Option.some.inj h)
    rw [Tokens.apiKey, Tokens.apiKey, hkeyPrefix, hsecret]
  ticketValues userId userId' familyId familyId' h := by
    rw [parseTicketValue_ticketValue, parseTicketValue_ticketValue] at h
    obtain ⟨huser, hfamily⟩ := Prod.mk.inj (Option.some.inj h)
    rw [Fin.ext huser, Fin.ext hfamily]

end Credentials

end Tickets
