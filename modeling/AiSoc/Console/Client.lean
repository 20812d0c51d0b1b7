import AiSoc.Library.Transition
import Mathlib.Logic.Function.Basic

namespace Console

section Calls

structure Session where
  accessToken : String
  deriving DecidableEq

-- ok with no session is an answer without a readable body; failed is every other error
inductive Response where
  | ok (session : Option Session)
  | unauthorized
  | failed
  deriving DecidableEq

structure RequestOptions where
  auth : Bool
  retryAuth : Bool
  deriving DecidableEq

-- what the promise of a refresh settles with
inductive Outcome where
  | session (session : Option Session)
  | error
  deriving DecidableEq

inductive ApiPhase where
  | absent
  | first (options : RequestOptions)
  | waiting (refresh : Nat)
  | second
  | finished
  deriving DecidableEq

-- locked waits for the browser's lock; settled has its outcome, and its finally is to run
inductive RefreshPhase where
  | absent
  | locked
  | inFlight
  | settled (outcome : Outcome)
  | done (outcome : Outcome)
  deriving DecidableEq

-- of loginSession and registerSession
inductive LoginPhase where
  | absent
  | prehashing
  | inFlight
  | finished
  deriving DecidableEq

inductive LogoutPhase where
  | absent
  | inFlight
  | finished
  deriving DecidableEq

inductive Request where
  | api (call : Nat) (token : Option String)
  | refresh (call : Nat)
  | login (call : Nat)
  | logout (call : Nat)
  deriving DecidableEq

-- the module's variables, the calls in progress and what went out
structure Client where
  accessToken : Option String
  refreshPromise : Option Nat
  sessionListeners : List Nat
  received : List (Nat × Option Session)
  sent : List Request
  nextRefresh : Nat
  requests : Nat → ApiPhase
  refreshes : Nat → RefreshPhase
  logins : Nat → LoginPhase
  logouts : Nat → LogoutPhase

def Client.start : Client where
  accessToken := none
  refreshPromise := none
  sessionListeners := []
  received := []
  sent := []
  nextRefresh := 0
  requests _ := .absent
  refreshes _ := .absent
  logins _ := .absent
  logouts _ := .absent

end Calls

section Steps

namespace Client

def publishSession (c : Client) (session : Option Session) : Client :=
  { c with
    accessToken := session.map (·.accessToken)
    received := c.received ++ c.sessionListeners.map fun listener => (listener, session) }

def send (c : Client) (request : Request) : Client :=
  { c with sent := c.sent ++ [request] }

def authHeader (c : Client) (auth : Bool) : Option String :=
  if auth then c.accessToken.filter (· ≠ "") else none

def setRequest (c : Client) (call : Nat) (phase : ApiPhase) : Client :=
  { c with requests := Function.update c.requests call phase }

def setRefresh (c : Client) (call : Nat) (phase : RefreshPhase) : Client :=
  { c with refreshes := Function.update c.refreshes call phase }

def setLogin (c : Client) (call : Nat) (phase : LoginPhase) : Client :=
  { c with logins := Function.update c.logins call phase }

def setLogout (c : Client) (call : Nat) (phase : LogoutPhase) : Client :=
  { c with logouts := Function.update c.logouts call phase }

-- the promise that refreshSession returns, a new one where none is pending
def refreshSession (c : Client) : Client × Nat :=
  match c.refreshPromise with
  | some refresh => (c, refresh)
  | none =>
      ({ c.setRefresh c.nextRefresh .locked with
          refreshPromise := some c.nextRefresh
          nextRefresh := c.nextRefresh + 1 }, c.nextRefresh)

-- performRefresh after its request
def settleRefresh (c : Client) (refresh : Nat) : Response → Client
  | .ok session =>
      (c.publishSession session).setRefresh refresh (.settled (.session session))
  | .unauthorized => (c.publishSession none).setRefresh refresh (.settled (.session none))
  | .failed => c.setRefresh refresh (.settled .error)

-- the catch of apiRequest after its first request
def handleResponse (c : Client) (call : Nat) (options : RequestOptions) : Response → Client
  | .unauthorized =>
      if options.auth && options.retryAuth then
        let (c, refresh) := c.refreshSession
        c.setRequest call (.waiting refresh)
      else c.setRequest call .finished
  | _ => c.setRequest call .finished

def finishLogin (c : Client) (call : Nat) : Response → Client
  | .ok session => (c.publishSession session).setLogin call .finished
  | _ => c.setLogin call .finished

end Client

-- one turn of the event loop that the module sees
inductive Event where
  | apiRequest (call : Nat) (options : RequestOptions)
  | apiResponse (call : Nat) (response : Response)
  | apiResume (call : Nat)
  | refreshSession
  | lockGranted (refresh : Nat)
  | lockRefused (refresh : Nat)
  | refreshResponse (refresh : Nat) (response : Response)
  | refreshFinally (refresh : Nat)
  | loginSession (call : Nat)
  | loginSent (call : Nat)
  | loginResponse (call : Nat) (response : Response)
  | logoutSession (call : Nat)
  | logoutResponse (call : Nat) (response : Response)
  | clearAccessToken
  | subscribe (listener : Nat)
  | unsubscribe (listener : Nat)
  deriving DecidableEq

open Client

def clientStep (c : Client) : Event → Option Client
  | .apiRequest call options =>
      if c.requests call = .absent then
        some ((c.send (.api call (c.authHeader options.auth))).setRequest call (.first options))
      else none
  | .apiResponse call response =>
      match c.requests call with
      | .first options => some (c.handleResponse call options response)
      | .second => some (c.setRequest call .finished)
      | _ => none
  | .apiResume call =>
      match c.requests call with
      | .waiting refresh =>
          match c.refreshes refresh with
          | .done (.session (some _)) =>
              some ((c.send (.api call (c.authHeader true))).setRequest call .second)
          | .done _ => some (c.setRequest call .finished)
          | _ => none
      | _ => none
  | .refreshSession => some c.refreshSession.1
  | .lockGranted refresh =>
      if c.refreshes refresh = .locked then
        some ((c.send (.refresh refresh)).setRefresh refresh .inFlight)
      else none
  | .lockRefused refresh =>
      if c.refreshes refresh = .locked then some (c.setRefresh refresh (.settled .error)) else none
  | .refreshResponse refresh response =>
      if c.refreshes refresh = .inFlight then some (c.settleRefresh refresh response) else none
  | .refreshFinally refresh =>
      match c.refreshes refresh with
      | .settled outcome =>
          some { c.setRefresh refresh (.done outcome) with refreshPromise := none }
      | _ => none
  | .loginSession call =>
      if c.logins call = .absent then some (c.setLogin call .prehashing) else none
  | .loginSent call =>
      if c.logins call = .prehashing then some ((c.send (.login call)).setLogin call .inFlight)
      else none
  | .loginResponse call response =>
      if c.logins call = .inFlight then some (c.finishLogin call response) else none
  | .logoutSession call =>
      if c.logouts call = .absent then some ((c.send (.logout call)).setLogout call .inFlight)
      else none
  | .logoutResponse call _ =>
      if c.logouts call = .inFlight then some ((c.publishSession none).setLogout call .finished)
      else none
  | .clearAccessToken => some (c.publishSession none)
  | .subscribe listener =>
      if listener ∈ c.sessionListeners then some c
      else some { c with sessionListeners := c.sessionListeners ++ [listener] }
  | .unsubscribe listener =>
      some { c with sessionListeners := c.sessionListeners.filter (· ≠ listener) }

end Steps

section Histories

-- how many logouts finished before each call started, whether a call that started after the
-- last of them signed in since, and how much the listeners had received by then
structure History where
  finished : Nat
  refreshBegan : Nat → Nat
  loginBegan : Nat → Nat
  loggedOut : Bool
  mark : Nat

def History.start : History := ⟨0, fun _ => 0, fun _ => 0, false, 0⟩

structure Tab where
  client : Client
  history : History

def Tab.start : Tab := ⟨.start, .start⟩

def Event.answer : Event → Option Session
  | .refreshResponse _ (.ok session) => session
  | .loginResponse _ (.ok session) => session
  | _ => none

def Event.began (h : History) : Event → Nat
  | .refreshResponse refresh _ => h.refreshBegan refresh
  | .loginResponse call _ => h.loginBegan call
  | _ => h.finished

def Stale (h : History) (event : Event) : Prop :=
  event.answer ≠ none ∧ event.began h ≠ h.finished

def observe (h : History) (event : Event) (c c' : Client) : History where
  finished :=
    match event with
    | .logoutResponse _ _ => h.finished + 1
    | _ => h.finished
  refreshBegan :=
    if c.nextRefresh < c'.nextRefresh then
      Function.update h.refreshBegan c.nextRefresh h.finished
    else h.refreshBegan
  loginBegan :=
    match event with
    | .loginSession call => Function.update h.loginBegan call h.finished
    | _ => h.loginBegan
  loggedOut :=
    match event with
    | .logoutResponse _ _ => true
    | _ => h.loggedOut && !(event.answer.isSome && decide (event.began h = h.finished))
  mark :=
    match event with
    | .logoutResponse _ _ => c'.received.length
    | _ => h.mark

def step (tab : Tab) (event : Event) : Option Tab :=
  (clientStep tab.client event).map fun c => ⟨c, observe tab.history event tab.client c⟩

end Histories

end Console
