import AiSoc.Library.Budget
import AiSoc.Library.Counters

namespace RateLimit

open Counters

structure Settings where
  authLoginWindowSeconds : Nat
  authLoginAccountLimit : Nat
  authLoginIpLimit : Nat
  window_ge : 60 ≤ authLoginWindowSeconds
  account_ge : 1 ≤ authLoginAccountLimit
  ip_ge : 1 ≤ authLoginIpLimit
  -- hashlib.sha256(value).hexdigest()
  digest : String → String

inductive Which where
  | account
  | ip
  deriving DecidableEq

-- the e-mail address is normalized
structure Login where
  email : String
  sourceIp : String

section Limiter

variable (settings : Settings)

def accountKey (email : String) : String :=
  "ai_soc:auth:account:" ++ settings.digest email

def ipKey (sourceIp : String) : String :=
  "ai_soc:auth:ip:" ++ settings.digest sourceIp

def key : Which → Login → String
  | .account, login => accountKey settings login.email
  | .ip, login => ipKey settings login.sourceIp

def limit : Which → Nat
  | .account => settings.authLoginAccountLimit
  | .ip => settings.authLoginIpLimit

-- one MGET
def isLimited (redis : Db) (login : Login) : Bool :=
  limit settings .account ≤ redis.value (key settings .account login) ||
    limit settings .ip ≤ redis.value (key settings .ip login)

end Limiter

section Requests

-- the command that a request runs next; record_failure counts the account, then the address
inductive Phase where
  | arrived
  | verifying
  | incrementing (which : Which)
  | expiring (which : Which)
  | clearing
  | finished
  | crashed
  deriving DecidableEq

def Phase.counted : Which → Phase
  | .account => .incrementing .ip
  | .ip => .finished

structure Request where
  login : Login
  phase : Phase

structure State where
  redis : Db
  requests : List Request

inductive Step where
  | arrive (login : Login)
  | check (i : Nat)
  | verify (i : Nat) (valid : Bool)
  | incr (i : Nat)
  | expire (i : Nat)
  | clear (i : Nat)
  | crash (i : Nat)
  | tick (seconds : Nat)

variable (settings : Settings)

def State.move (s : State) (i : Nat) (request : Request) (phase : Phase) : State :=
  { s with requests := s.requests.set i { request with phase } }

def checked (s : State) (i : Nat) (request : Request) : Option State :=
  match request.phase with
  | .arrived =>
      some (s.move i request (if isLimited settings s.redis request.login then .finished else .verifying))
  | _ => none

def verified (s : State) (i : Nat) (request : Request) (valid : Bool) : Option State :=
  match request.phase with
  | .verifying => some (s.move i request (if valid then .clearing else .incrementing .account))
  | _ => none

def incremented (s : State) (i : Nat) (request : Request) : Option State :=
  match request.phase with
  | .incrementing which =>
      let counter := key settings which request.login
      let count := s.redis.value counter + 1
      let moved := s.move i request (if count = 1 then .expiring which else .counted which)
      some { moved with redis := s.redis.incr counter }
  | _ => none

def expired (s : State) (i : Nat) (request : Request) : Option State :=
  match request.phase with
  | .expiring which =>
      let moved := s.move i request (.counted which)
      some { moved with
             redis := s.redis.expire (key settings which request.login) settings.authLoginWindowSeconds }
  | _ => none

def cleared (s : State) (i : Nat) (request : Request) : Option State :=
  match request.phase with
  | .clearing =>
      let moved := s.move i request .finished
      some { moved with redis := s.redis.delete (key settings .account request.login) }
  | _ => none

def crashed (s : State) (i : Nat) (request : Request) : Option State :=
  match request.phase with
  | .finished | .crashed => none
  | _ => some (s.move i request .crashed)

def step (s : State) : Step → Option State
  | .arrive login => some { s with requests := s.requests ++ [⟨login, .arrived⟩] }
  | .check i => s.requests[i]?.bind (checked settings s i)
  | .verify i valid => s.requests[i]?.bind fun request => verified s i request valid
  | .incr i => s.requests[i]?.bind (incremented settings s i)
  | .expire i => s.requests[i]?.bind (expired settings s i)
  | .clear i => s.requests[i]?.bind (cleared settings s i)
  | .crash i => s.requests[i]?.bind (crashed s i)
  | .tick seconds => some { s with redis := s.redis.tick seconds }

def initial : State :=
  { redis := { stored := fun _ => none, now := 0 }, requests := [] }

def admits (which : Which) (counter : String) (s : State) : Step → Bool
  | .check i =>
      s.requests[i]?.any fun request =>
        request.phase = .arrived && !isLimited settings s.redis request.login &&
          key settings which request.login = counter
  | _ => false

def reached (which : Which) (counter : String) : State → List Step → Nat :=
  Transition.count (step settings) (admits settings which counter)

end Requests

end RateLimit
