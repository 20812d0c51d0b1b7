import Mathlib.Algebra.Order.Ring.Rat

namespace Response

abbrev Seconds := Rat

inductive ActionKind where
  | normal
  | disruptive
  deriving DecidableEq, Repr

-- a sorted set whose members are the texts of their scores
structure ZSet where
  scores : List Seconds := []
  expireAt : Option Seconds := none
  deriving DecidableEq, Repr

def ZSet.live (now : Seconds) (z : ZSet) : ZSet :=
  match z.expireAt with
  | some deadline => if deadline ≤ now then {} else z
  | none => z

def ZSet.zadd (score now : Seconds) (z : ZSet) : ZSet :=
  let z := z.live now
  if score ∈ z.scores then z else { z with scores := z.scores ++ [score] }

def ZSet.expire (ttl now : Seconds) (z : ZSet) : ZSet :=
  { z.live now with expireAt := some (now + ttl) }

def ZSet.zremrangebyscore (lo hi now : Seconds) (z : ZSet) : ZSet :=
  let z := z.live now
  { z with scores := z.scores.filter fun score => !(lo ≤ score && score ≤ hi) }

def ZSet.zcard (now : Seconds) (z : ZSet) : Nat :=
  (z.live now).scores.length

structure Redis where
  -- whether the client returns str instead of bytes
  decodeResponses : Bool
  killSwitch : Option String := none
  allActions : ZSet := {}
  disruptiveActions : ZSet := {}
  deriving DecidableEq, Repr

inductive Backend where
  | redis
  | inMemory (killSwitch : Bool) (history : List (Seconds × ActionKind))
  deriving DecidableEq, Repr

structure CircuitBreaker where
  backend : Backend := .inMemory false []
  maxActionsPerHour : Nat := 10
  maxDisruptiveActionsPerHour : Nat := 3
  deriving DecidableEq, Repr

def capReason (kind : String) (count limit : Nat) : String :=
  s!"Hourly {kind} action cap reached ({count}/{limit})"

def killSwitchReason : String :=
  "Global response kill switch is ACTIVE"

def CircuitBreaker.overLimits (cb : CircuitBreaker) (total disruptive : Nat) : Bool × String :=
  if total ≥ cb.maxActionsPerHour then
    (true, capReason "total" total cb.maxActionsPerHour)
  else if disruptive ≥ cb.maxDisruptiveActionsPerHour then
    (true, capReason "disruptive" disruptive cb.maxDisruptiveActionsPerHour)
  else (false, "ok")

-- now is the reading of the first count, now' that of the second
def CircuitBreaker.isTripped (cb : CircuitBreaker) (redis : Redis) (now now' : Seconds) :
    Except String (Bool × String) × CircuitBreaker × Redis :=
  match cb.backend with
  | .redis =>
      let halted := redis.killSwitch.getD ""
      if halted ≠ "" ∧ redis.decodeResponses then
        (.error "'str' object has no attribute 'decode'", cb, redis)
      else if halted = "1" then (.ok (true, killSwitchReason), cb, redis)
      else
        let all := redis.allActions.zremrangebyscore 0 (now - 3600) now
        let redis := { redis with allActions := all }
        if all.zcard now ≥ cb.maxActionsPerHour then
          (.ok (cb.overLimits (all.zcard now) 0), cb, redis)
        else
          let disruptive := redis.disruptiveActions.zremrangebyscore 0 (now' - 3600) now'
          (.ok (cb.overLimits (all.zcard now) (disruptive.zcard now')), cb,
            { redis with disruptiveActions := disruptive })
  | .inMemory killSwitch history =>
      if killSwitch then (.ok (true, killSwitchReason), cb, redis)
      else
        let history := history.filter fun p => now - 3600 ≤ p.1
        let disruptive := (history.filter fun p => p.2 = .disruptive).length
        (.ok (cb.overLimits history.length disruptive),
          { cb with backend := .inMemory killSwitch history }, redis)

def CircuitBreaker.recordExecution (cb : CircuitBreaker) (redis : Redis) (isDisruptive : Bool)
    (now : Seconds) : CircuitBreaker × Redis :=
  match cb.backend with
  | .redis =>
      let redis := { redis with allActions := (redis.allActions.zadd now now).expire 3600 now }
      if isDisruptive then
        (cb, { redis with
          disruptiveActions := (redis.disruptiveActions.zadd now now).expire 3600 now })
      else (cb, redis)
  | .inMemory killSwitch history =>
      let kind := if isDisruptive then .disruptive else .normal
      ({ cb with backend := .inMemory killSwitch (history ++ [(now, kind)]) }, redis)

def CircuitBreaker.setKillSwitch (cb : CircuitBreaker) (redis : Redis) (enabled : Bool) :
    CircuitBreaker × Redis :=
  match cb.backend with
  | .redis => (cb, { redis with killSwitch := some (if enabled then "1" else "0") })
  | .inMemory _ history => ({ cb with backend := .inMemory enabled history }, redis)

theorem isTripped_fresh (redis : Redis) (now now' : Seconds) :
    ({} : CircuitBreaker).isTripped redis now now' = (.ok (false, "ok"), {}, redis) := by
  rfl

end Response
