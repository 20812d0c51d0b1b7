import Mathlib.Logic.Basic

namespace Counters

structure Counter where
  value : Nat
  expiresAt : Option Nat
  deriving DecidableEq

structure Db where
  stored : String → Option Counter
  now : Nat

def Counter.isLive (now : Nat) (counter : Counter) : Bool :=
  !counter.expiresAt.any (· ≤ now)

def Db.live (db : Db) (key : String) : Option Counter :=
  (db.stored key).filter (Counter.isLive db.now)

def Db.value (db : Db) (key : String) : Nat :=
  ((db.live key).map Counter.value).getD 0

def Db.put (db : Db) (key : String) (counter : Option Counter) : Db :=
  { db with stored := fun k => if k = key then counter else db.stored k }

-- INCR keeps the expiry of a counter that is there
def Db.incr (db : Db) (key : String) : Db :=
  db.put key (some ⟨db.value key + 1, (db.live key).bind Counter.expiresAt⟩)

def Db.expire (db : Db) (key : String) (seconds : Nat) : Db :=
  match db.live key with
  | none => db
  | some counter => db.put key (some { counter with expiresAt := some (db.now + seconds) })

def Db.delete (db : Db) (key : String) : Db :=
  db.put key none

-- SET key 1 EX seconds NX, with the answer whether the key was set
def Db.setNx (db : Db) (key : String) (seconds : Nat) : Db × Bool :=
  match db.live key with
  | none => (db.put key (some ⟨1, some (db.now + seconds)⟩), true)
  | some _ => (db, false)

def Db.tick (db : Db) (seconds : Nat) : Db :=
  { db with now := db.now + seconds }

section Live

variable {db : Db} {key other : String} {counter : Counter}

theorem live_put_self {stored : Option Counter} : (db.put key stored).live key =
    stored.filter (Counter.isLive db.now) :=
  congrArg (Option.filter (Counter.isLive db.now)) (if_pos rfl)

theorem live_put_of_ne {stored : Option Counter} (h : other ≠ key) :
    (db.put key stored).live other = db.live other :=
  congrArg (Option.filter (Counter.isLive db.now)) (if_neg h)

theorem isLive_of_live (h : db.live key = some counter) : counter.isLive db.now = true := by
  rw [Db.live, Option.filter_eq_some_iff] at h
  exact h.2

theorem live_incr_self : (db.incr key).live key =
    some ⟨db.value key + 1, (db.live key).bind Counter.expiresAt⟩ := by
  rw [Db.incr, live_put_self, Option.filter_eq_some_iff]
  refine ⟨rfl, ?_⟩
  cases hlive : db.live key with
  | none => rfl
  | some counter =>
      have h := isLive_of_live hlive
      exact h

theorem live_incr_of_ne (h : other ≠ key) : (db.incr key).live other = db.live other :=
  live_put_of_ne h

theorem value_incr_self : (db.incr key).value key = db.value key + 1 := by
  rw [Db.value, live_incr_self]
  rfl

theorem value_incr_of_ne (h : other ≠ key) : (db.incr key).value other = db.value other := by
  rw [Db.value, live_incr_of_ne h, Db.value]

theorem live_expire_self {seconds : Nat} (h : 0 < seconds) : (db.expire key seconds).live key =
    (db.live key).map fun counter => { counter with expiresAt := some (db.now + seconds) } := by
  unfold Db.expire
  cases hlive : db.live key with
  | none => exact hlive
  | some counter =>
      simp only
      have hlater : ¬ db.now + seconds ≤ db.now := by omega
      rw [live_put_self, Option.map_some, Option.filter_eq_some_iff]
      refine ⟨rfl, ?_⟩
      simp [Counter.isLive, hlater]

theorem live_expire_of_ne {seconds : Nat} (h : other ≠ key) :
    (db.expire key seconds).live other = db.live other := by
  unfold Db.expire
  cases db.live key with
  | none => rfl
  | some counter => exact live_put_of_ne h

theorem value_expire {seconds : Nat} (h : 0 < seconds) :
    (db.expire key seconds).value other = db.value other := by
  by_cases hkey : other = key
  · subst hkey
    rw [Db.value, live_expire_self h, Db.value]
    cases db.live other with
    | none => rfl
    | some counter => rfl
  · rw [Db.value, live_expire_of_ne hkey, Db.value]

theorem live_delete_self : (db.delete key).live key = none :=
  live_put_self

theorem live_delete_of_ne (h : other ≠ key) : (db.delete key).live other = db.live other :=
  live_put_of_ne h

theorem value_delete_of_ne (h : other ≠ key) : (db.delete key).value other = db.value other := by
  rw [Db.value, live_delete_of_ne h, Db.value]

theorem setNx_of_none {seconds : Nat} (h : db.live key = none) :
    db.setNx key seconds = (db.put key (some ⟨1, some (db.now + seconds)⟩), true) := by
  rw [Db.setNx, h]

theorem setNx_of_some {seconds : Nat} (h : db.live key = some counter) :
    db.setNx key seconds = (db, false) := by
  rw [Db.setNx, h]

theorem live_setNx {seconds : Nat} (h : db.live other = some counter) :
    (db.setNx key seconds).1.live other = some counter := by
  cases hkey : db.live key with
  | none =>
      have hne : other ≠ key := fun heq => by
        rw [heq, hkey] at h
        cases h
      rw [setNx_of_none hkey, live_put_of_ne hne, h]
  | some old => rw [setNx_of_some hkey, h]

theorem now_setNx {seconds : Nat} : (db.setNx key seconds).1.now = db.now := by
  cases hkey : db.live key with
  | none => rw [setNx_of_none hkey]; rfl
  | some old => rw [setNx_of_some hkey]

theorem live_tick {seconds : Nat} (h : db.live key = some counter)
    (hlive : counter.isLive (db.now + seconds) = true) :
    (db.tick seconds).live key = some counter := by
  rw [Db.live, Option.filter_eq_some_iff] at h ⊢
  exact ⟨h.1, hlive⟩

theorem live_of_tick {seconds : Nat} (h : (db.tick seconds).live key = some counter) :
    db.live key = some counter ∧ counter.isLive (db.now + seconds) = true := by
  rw [Db.live, Option.filter_eq_some_iff] at h
  obtain ⟨hstored, hlive⟩ := h
  refine ⟨?_, hlive⟩
  rw [Db.live, Option.filter_eq_some_iff]
  refine ⟨hstored, ?_⟩
  revert hlive
  unfold Counter.isLive Db.tick
  cases counter.expiresAt with
  | none => exact id
  | some t =>
      intro hlive
      simp only [Option.any_some, Bool.not_eq_true', decide_eq_false_iff_not] at hlive ⊢
      omega

end Live

end Counters
