import AiSoc.Library.Custody
import AiSoc.Library.Process
import AiSoc.Library.PyStr
import AiSoc.Library.SortedSet
import AiSoc.Security.Permissions

namespace InvestigationQueue

open Permissions (Uuid Timestamp)
open SortedSet Custody Process

-- the fields of a payload; json.dumps writes different fields as different texts
structure DeadLetter where
  id : Uuid
  reason : String
  errorClass : String
  ts : Timestamp
  deriving DecidableEq

-- where an id comes from that is pushed to the main list without being new
inductive Source where
  | delayed (id : Uuid)
  | dead (raw : DeadLetter)
  deriving DecidableEq

def Source.id : Source → Uuid
  | .delayed id => id
  | .dead raw => raw.id

structure Redis where
  queue : List Uuid
  delayed : ZSet Uuid
  dlq : List DeadLetter

def Redis.empty : Redis :=
  ⟨[], .empty, []⟩

def Redis.sources (redis : Redis) : List Source :=
  redis.delayed.members.map .delayed ++ redis.dlq.map .dead

-- what the calls did so far: ids that enqueue pushed, ids that BLPOP gave out,
-- and of the call that a caller is in the entries it moved and the ids it was given
structure Journal where
  entries : Ledger Source
  enqueued : List Uuid
  delivered : List Uuid
  moves : Nat → List Source
  given : Nat → List Uuid

def Journal.empty : Journal :=
  ⟨.empty, [], [], fun _ => [], fun _ => []⟩

structure Db where
  redis : Redis
  journal : Journal

def Db.start : Db :=
  ⟨.empty, .empty⟩

def Journal.pushed (journal : Journal) : List Uuid :=
  journal.enqueued ++ journal.entries.moved.map Source.id

inductive Stmt where
  | time
  -- `source` is the entry that the push is made for
  | rpush (id : Uuid) (source : Option Source)
  | zadd (id : Uuid) (score : Int)
  | zrangebyscore (lo hi : Int)
  | zrem (id : Uuid)
  | blpop (timeout : Nat)
  | rpushDlq (raw : DeadLetter)
  | lrange
  | lrem (raw : DeadLetter)

@[reducible] def Result : Stmt → Type
  | .time => Timestamp
  | .zrangebyscore _ _ => List Uuid
  | .zrem _ => Nat
  | .blpop _ => Option Uuid
  | .lrange => List DeadLetter
  | .lrem _ => Nat
  | _ => Unit

def Journal.push (journal : Journal) (t : Nat) (id : Uuid) : Option Source → Journal
  | none => { journal with enqueued := id :: journal.enqueued }
  | some source =>
      { journal with
        entries := journal.entries.move t source
        moves := Function.update journal.moves t (source :: journal.moves t) }

def Journal.deliver (journal : Journal) (t : Nat) (id : Uuid) : Journal :=
  { journal with
    delivered := id :: journal.delivered
    given := Function.update journal.given t (id :: journal.given t) }

def Journal.add (journal : Journal) (source : Source) : Journal :=
  { journal with entries := journal.entries.add source }

def Journal.take (journal : Journal) (t : Nat) (source : Source) : Journal :=
  { journal with entries := journal.entries.take t source }

-- the choice is the reading of the clock, in microseconds
def exec (t : Nat) : (q : Stmt) → Timestamp → Db → Option (Result q × Db)
  | .time, now, db => some (now, db)
  | .rpush id source, _, ⟨redis, journal⟩ =>
      some ((), ⟨{ redis with queue := redis.queue ++ [id] }, journal.push t id source⟩)
  | .zadd id score, _, ⟨redis, journal⟩ =>
      some ((),
        ⟨{ redis with delayed := (redis.delayed.add id score).2 },
          if (redis.delayed.add id score).1 > 0 then journal.add (.delayed id) else journal⟩)
  | .zrangebyscore lo hi, _, db => some (db.redis.delayed.rangeByScore lo hi, db)
  | .zrem id, _, ⟨redis, journal⟩ =>
      some ((redis.delayed.remove id).1,
        ⟨{ redis with delayed := (redis.delayed.remove id).2 },
          if (redis.delayed.remove id).1 > 0 then journal.take t (.delayed id) else journal⟩)
  | .blpop timeout, _, ⟨redis, journal⟩ =>
      match redis.queue with
      -- a timeout of 0 waits until there is an element
      | [] => if timeout = 0 then none else some (none, ⟨redis, journal⟩)
      | id :: rest => some (some id, ⟨{ redis with queue := rest }, journal.deliver t id⟩)
  | .rpushDlq raw, _, ⟨redis, journal⟩ =>
      some ((), ⟨{ redis with dlq := redis.dlq ++ [raw] }, journal.add (.dead raw)⟩)
  | .lrange, _, db => some (db.redis.dlq, db)
  | .lrem raw, _, ⟨redis, journal⟩ =>
      if raw ∈ redis.dlq then
        some ((1 : Nat),
          ⟨{ redis with dlq := redis.dlq.erase raw }, journal.take t (.dead raw)⟩)
      else some ((0 : Nat), ⟨redis, journal⟩)

def Journal.close (journal : Journal) (t : Nat) : Journal :=
  { journal with
    entries := journal.entries.drop t
    moves := Function.update journal.moves t []
    given := Function.update journal.given t [] }

def close (t : Nat) (db : Db) : Db :=
  { db with journal := db.journal.close t }

abbrev Proc (α : Type) := Prog Stmt Result α

abbrev call (q : Stmt) : Proc (Result q) := Prog.call q

section Methods

def enqueue (investigationId : Uuid) : Proc Unit :=
  call (.rpush investigationId none)

def enqueueDelayed (investigationId : Uuid) (delaySeconds : Int) : Proc Unit := do
  let now ← call .time
  let readyTs := now + delaySeconds * 1000000
  call (.zadd investigationId readyTs)

def promoteItems : List Uuid → Nat → Proc Nat
  | [], promoted => pure promoted
  | item :: readyItems, promoted => do
      let removed ← call (.zrem item)
      if removed > 0 then
        call (.rpush item (some (.delayed item)))
        promoteItems readyItems (promoted + 1)
      else
        promoteItems readyItems promoted

def promoteDelayed : Proc Nat := do
  let now ← call .time
  let readyItems ← call (.zrangebyscore 0 now)
  promoteItems readyItems 0

def dequeue (timeout : Nat) : Proc (Option Uuid) :=
  call (.blpop timeout)

def sendToDlq (investigationId : Uuid) (reason errorClass : String) : Proc Unit := do
  let ts ← call .time
  call (.rpushDlq ⟨investigationId, PyStr.slice 2000 reason, errorClass, ts⟩)

-- the number of elements that LREM removed is not looked at
def replayFromDlq (investigationId : Uuid) : Proc Bool := do
  let items ← call .lrange
  match items.find? fun raw => raw.id = investigationId with
  | none => pure false
  | some raw => do
      let _ ← call (.lrem raw)
      call (.rpush investigationId (some (.dead raw)))
      pure true

end Methods

inductive Call where
  | enqueue (investigationId : Uuid)
  | enqueueDelayed (investigationId : Uuid) (delaySeconds : Int)
  | promoteDelayed
  | dequeue (timeout : Nat)
  | sendToDlq (investigationId : Uuid) (reason errorClass : String)
  | replayFromDlq (investigationId : Uuid)

inductive Out where
  | none
  | promoted (count : Nat)
  | dequeued (investigationId : Option Uuid)
  | replayed (found : Bool)

def body : Call → Proc Out
  | .enqueue investigationId => do
      enqueue investigationId
      pure .none
  | .enqueueDelayed investigationId delaySeconds => do
      enqueueDelayed investigationId delaySeconds
      pure .none
  | .promoteDelayed => do
      let promoted ← promoteDelayed
      pure (.promoted promoted)
  | .dequeue timeout => do
      let investigationId ← dequeue timeout
      pure (.dequeued investigationId)
  | .sendToDlq investigationId reason errorClass => do
      sendToDlq investigationId reason errorClass
      pure .none
  | .replayFromDlq investigationId => do
      let found ← replayFromDlq investigationId
      pure (.replayed found)

def machine : Machine where
  Db := Db
  Stmt := Stmt
  Result := Result
  Choice := Timestamp
  Call := Call
  Out := Out
  exec := exec
  close := close
  body := body

end InvestigationQueue
