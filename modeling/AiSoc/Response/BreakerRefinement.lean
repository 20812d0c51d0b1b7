import AiSoc.Response.CircuitBreaker
import Mathlib.Data.List.Dedup
import Mathlib.Data.List.Perm.Basic
import Mathlib.Tactic.Linarith

namespace Response

section Calls

-- now and now' are the readings of time.time() in the call; the in-memory breaker reads once
inductive BreakerCall where
  | recordExecution (isDisruptive : Bool) (now : Seconds)
  | isTripped (now now' : Seconds)
  | setKillSwitch (enabled : Bool)

def BreakerCall.readings : BreakerCall → List Seconds
  | .recordExecution _ now => [now]
  | .isTripped now now' => [now, now']
  | .setKillSwitch _ => []

def readings (calls : List BreakerCall) : List Seconds :=
  calls.flatMap BreakerCall.readings

-- a breaker over the client of app/db/redis.py and one without Redis
structure Breakers where
  remote : CircuitBreaker
  redis : Redis
  inMemory : CircuitBreaker

def Breakers.start (maxActions maxDisruptive : Nat) : Breakers where
  remote := ⟨.redis, maxActions, maxDisruptive⟩
  redis := { decodeResponses := true }
  inMemory := ⟨.inMemory false [], maxActions, maxDisruptive⟩

abbrev Answer := Except String Bool × Except String Bool

def Breakers.call (s : Breakers) : BreakerCall → Option Answer × Breakers
  | .recordExecution isDisruptive now =>
      let (remote, redis) := s.remote.recordExecution s.redis isDisruptive now
      let (inMemory, _) := s.inMemory.recordExecution s.redis isDisruptive now
      (none, ⟨remote, redis, inMemory⟩)
  | .isTripped now now' =>
      let (answer, remote, redis) := s.remote.isTripped s.redis now now'
      let (answer', inMemory, _) := s.inMemory.isTripped s.redis now now'
      (some (answer.map (·.1), answer'.map (·.1)), ⟨remote, redis, inMemory⟩)
  | .setKillSwitch enabled =>
      let (remote, redis) := s.remote.setKillSwitch s.redis enabled
      let (inMemory, _) := s.inMemory.setKillSwitch s.redis enabled
      (none, ⟨remote, redis, inMemory⟩)

def Breakers.answers (s : Breakers) : List BreakerCall → List Answer
  | [] => []
  | call :: calls => (s.call call).1.toList ++ (s.call call).2.answers calls

def SameFlag (answer : Answer) : Prop :=
  ∃ tripped, answer = (.ok tripped, .ok tripped)

def BreakersAgree (maxActions maxDisruptive : Nat) (calls : List BreakerCall) : Prop :=
  ∀ answer ∈ (Breakers.start maxActions maxDisruptive).answers calls, SameFlag answer

end Calls

section Counts

abbrev Record := Seconds × ActionKind

def disruptive (record : Record) : Bool :=
  record.2 = .disruptive

def kindOf (isDisruptive : Bool) : ActionKind :=
  if isDisruptive then .disruptive else .normal

def alive (now : Seconds) : List Seconds → List Seconds
  | [] => []
  | time :: older => if now < time + 3600 then time :: alive time older else []

def distinctCount (now : Seconds) (times : List Seconds) : Nat :=
  ((alive now times).dedup.filter fun time => time < 0 || now - 3600 < time).length

def windowCount (now : Seconds) (records : List Record) : Nat :=
  (records.filter fun record => now - 3600 ≤ record.1).length

def times (records : List Record) : List Seconds :=
  records.map (·.1)

def SameCap (maxActions maxDisruptive : Nat) (now now' : Seconds) (records : List Record) : Prop :=
  (maxActions ≤ windowCount now records ∨
      maxDisruptive ≤ windowCount now (records.filter disruptive)) ↔
    (maxActions ≤ distinctCount now (times records) ∨
      maxDisruptive ≤ distinctCount now' (times (records.filter disruptive)))

def Calm (maxActions maxDisruptive : Nat) : Bool → List Record → List BreakerCall → Prop
  | _, _, [] => True
  | switched, records, .recordExecution isDisruptive now :: calls =>
      Calm maxActions maxDisruptive switched ((now, kindOf isDisruptive) :: records) calls
  | switched, records, .isTripped now now' :: calls =>
      (switched = false ∧ SameCap maxActions maxDisruptive now now' records) ∧
        Calm maxActions maxDisruptive switched records calls
  | _, records, .setKillSwitch _ :: calls => Calm maxActions maxDisruptive true records calls

end Counts

section SortedSets

variable {z : ZSet} {recorded : List Seconds} {t now : Seconds}

structure Holds (z : ZSet) (recorded : List Seconds) (t : Seconds) : Prop where
  nodup : z.scores.Nodup
  members : ∃ purged ≤ t - 3600, ∀ now, t ≤ now → ∀ time,
    time ∈ (z.live now).scores ↔ time ∈ alive now recorded ∧ (time < 0 ∨ purged < time)

theorem holds_empty (t : Seconds) : Holds {} [] t :=
  ⟨List.nodup_nil, t - 3600, le_rfl, fun _ _ _ => by simp [ZSet.live, alive]⟩

theorem nodup_live (h : z.scores.Nodup) (now : Seconds) : (z.live now).scores.Nodup := by
  unfold ZSet.live
  split
  · split
    · exact List.nodup_nil
    · exact h
  · exact h

theorem Holds.mono {t' : Seconds} (h : Holds z recorded t) (hle : t ≤ t') :
    Holds z recorded t' := by
  obtain ⟨purged, hpurged, hmembers⟩ := h.members
  exact ⟨h.nodup, purged, by linarith, fun now hnow => hmembers now (le_trans hle hnow)⟩

theorem live_later {now' : Seconds} (hle : now ≤ now') (z : ZSet) :
    z.live now' = (z.live now).live now' := by
  unfold ZSet.live
  cases hdeadline : z.expireAt with
  | none => simp [hdeadline]
  | some deadline =>
      by_cases hnow : deadline ≤ now
      · simp [hnow, le_trans hnow hle]
      · simp [hnow, hdeadline]

theorem Holds.mem_zremrangebyscore {now' : Seconds} (h : Holds z recorded t) (hle : t ≤ now)
    (hnow' : now ≤ now') (time : Seconds) :
    time ∈ ((z.zremrangebyscore 0 (now - 3600) now).live now').scores ↔
      time ∈ alive now' recorded ∧ (time < 0 ∨ now - 3600 < time) := by
  obtain ⟨purged, hpurged, hmembers⟩ := h.members
  have hlater : ((z.zremrangebyscore 0 (now - 3600) now).live now').scores =
      (z.live now').scores.filter fun score => !(0 ≤ score && score ≤ now - 3600) := by
    rw [live_later hnow' z]
    unfold ZSet.zremrangebyscore ZSet.live
    simp only
    split
    · split
      · rfl
      · rfl
    · rfl
  rw [hlater, List.mem_filter, hmembers now' (le_trans hle hnow')]
  simp only [Bool.not_eq_eq_eq_not, Bool.not_true, Bool.and_eq_false_imp, decide_eq_true_eq,
    decide_eq_false_iff_not, not_le]
  constructor
  · rintro ⟨⟨halive, _⟩, hkept⟩
    refine ⟨halive, ?_⟩
    rcases lt_or_ge time 0 with hneg | hpos
    · exact .inl hneg
    · exact .inr (hkept hpos)
  · rintro ⟨halive, hneg | hrecent⟩
    · exact ⟨⟨halive, .inl hneg⟩, fun hpos => absurd hneg (not_lt.mpr hpos)⟩
    · exact ⟨⟨halive, .inr (by linarith)⟩, fun _ => hrecent⟩

theorem Holds.zremrangebyscore (h : Holds z recorded t) (hle : t ≤ now) :
    Holds (z.zremrangebyscore 0 (now - 3600) now) recorded now :=
  ⟨(nodup_live h.nodup now).filter _, now - 3600, le_rfl,
    fun _ hnow' time => h.mem_zremrangebyscore hle hnow' time⟩

theorem Holds.record (h : Holds z recorded t) (hle : t ≤ now) :
    Holds ((z.zadd now now).expire 3600 now) (now :: recorded) now := by
  obtain ⟨purged, hpurged, hmembers⟩ := h.members
  have hnodup := nodup_live h.nodup now
  have hadded : (z.zadd now now).scores.Nodup ∧
      (∀ time, time ∈ (z.zadd now now).scores ↔ time = now ∨ time ∈ (z.live now).scores) ∧
        (z.zadd now now).live now = z.zadd now now := by
    have hlive : (z.live now).live now = z.live now := (live_later le_rfl z).symm
    unfold ZSet.zadd
    simp only
    split
    · rename_i hmem
      refine ⟨hnodup, fun time => ⟨.inr, ?_⟩, hlive⟩
      rintro (rfl | hold)
      · exact hmem
      · exact hold
    · rename_i hnew
      refine ⟨?_, fun time => ?_, ?_⟩
      · rw [← List.concat_eq_append]
        exact hnodup.concat hnew
      · simp [or_comm]
      · have hexpire : ∀ deadline, (z.live now).expireAt = some deadline → ¬ deadline ≤ now := by
          intro deadline hdeadline hout
          unfold ZSet.live at hdeadline
          split at hdeadline
          · split at hdeadline
            · cases hdeadline
            · rename_i old hold hlate
              rw [hold] at hdeadline
              exact hlate (Option.some.inj hdeadline ▸ hout)
          · rename_i hnone
            rw [hnone] at hdeadline
            cases hdeadline
        unfold ZSet.live
        split
        · rename_i deadline hdeadline
          rw [if_neg (hexpire deadline hdeadline)]
        · rfl
  obtain ⟨hnodup', hmem, hsame⟩ := hadded
  refine ⟨?_, purged, by linarith, fun now' hnow' time => ?_⟩
  · unfold ZSet.expire
    rw [hsame]
    exact hnodup'
  · unfold ZSet.expire alive
    rw [hsame]
    simp only [ZSet.live]
    by_cases hout : now + 3600 ≤ now'
    · rw [if_pos hout, if_neg (not_lt.mpr hout)]
      simp
    · rw [if_neg hout, if_pos (not_le.mp hout), hmem, hmembers now hle, List.mem_cons]
      constructor
      · rintro (rfl | ⟨halive, hkept⟩)
        · exact ⟨.inl rfl, .inr (by linarith)⟩
        · exact ⟨.inr halive, hkept⟩
      · rintro ⟨rfl | halive, hkept⟩
        · exact .inl rfl
        · exact .inr ⟨halive, hkept⟩

theorem Holds.zcard (h : Holds z recorded t) (hle : t ≤ now) :
    (z.zremrangebyscore 0 (now - 3600) now).zcard now = distinctCount now recorded := by
  have hnodup := nodup_live (h.zremrangebyscore hle).nodup now
  unfold ZSet.zcard distinctCount
  refine List.Perm.length_eq ?_
  rw [List.perm_ext_iff_of_nodup hnodup ((List.nodup_dedup _).filter _)]
  intro time
  rw [h.mem_zremrangebyscore hle le_rfl, List.mem_filter, List.mem_dedup, Bool.or_eq_true,
    decide_eq_true_eq, decide_eq_true_eq]

end SortedSets

section Tracking

variable {maxActions maxDisruptive : Nat} {s : Breakers} {switched : Bool}
  {records : List Record} {t now now' : Seconds}

def HistoryOf (history records : List Record) (t : Seconds) : Prop :=
  ∀ now, t ≤ now → (history.filter fun record => now - 3600 ≤ record.1) =
    (records.filter fun record => now - 3600 ≤ record.1).reverse

structure Tracks (maxActions maxDisruptive : Nat) (s : Breakers) (switched : Bool)
    (records : List Record) (t : Seconds) : Prop where
  remote : s.remote = ⟨.redis, maxActions, maxDisruptive⟩
  client : s.redis.decodeResponses = true
  switch : if switched then s.redis.killSwitch.getD "" ≠ "" else s.redis.killSwitch = none
  all : Holds s.redis.allActions (times records) t
  disruptive : Holds s.redis.disruptiveActions (times (records.filter disruptive)) t
  inMemory : ∃ killSwitch history, (switched = false → killSwitch = false) ∧
    s.inMemory = ⟨.inMemory killSwitch history, maxActions, maxDisruptive⟩ ∧
      HistoryOf history records t

theorem tracks_start (maxActions maxDisruptive : Nat) (t : Seconds) :
    Tracks maxActions maxDisruptive (.start maxActions maxDisruptive) false [] t where
  remote := rfl
  client := rfl
  switch := rfl
  all := holds_empty t
  disruptive := holds_empty t
  inMemory := ⟨false, [], fun _ => rfl, rfl, fun _ _ => rfl⟩

theorem tracks_setKillSwitch (h : Tracks maxActions maxDisruptive s switched records t)
    (enabled : Bool) :
    Tracks maxActions maxDisruptive (s.call (.setKillSwitch enabled)).2 true records t := by
  obtain ⟨killSwitch, history, _, hinMemory, hhistory⟩ := h.inMemory
  simp only [Breakers.call, CircuitBreaker.setKillSwitch, h.remote, hinMemory]
  refine ⟨rfl, h.client, ?_, h.all, h.disruptive, enabled, history, nofun, rfl, hhistory⟩
  cases enabled with
  | true => simp
  | false => simp

theorem tracks_recordExecution (h : Tracks maxActions maxDisruptive s switched records t)
    (hle : t ≤ now) (isDisruptive : Bool) :
    Tracks maxActions maxDisruptive (s.call (.recordExecution isDisruptive now)).2 switched
      ((now, kindOf isDisruptive) :: records) now := by
  obtain ⟨killSwitch, history, hkill, hinMemory, hhistory⟩ := h.inMemory
  have hextended : HistoryOf (history ++ [(now, kindOf isDisruptive)])
      ((now, kindOf isDisruptive) :: records) now := by
    intro later hlater
    rw [List.filter_append, hhistory later (le_trans hle hlater), List.filter_cons,
      List.filter_cons, List.filter_nil]
    split
    · rw [List.reverse_cons]
    · rw [List.append_nil]
  simp only [Breakers.call, CircuitBreaker.recordExecution, h.remote, hinMemory]
  cases isDisruptive with
  | true =>
      exact ⟨rfl, h.client, h.switch, h.all.record hle, h.disruptive.record hle, killSwitch, _,
        hkill, rfl, hextended⟩
  | false =>
      exact ⟨rfl, h.client, h.switch, h.all.record hle, h.disruptive.mono hle, killSwitch, _,
        hkill, rfl, hextended⟩

theorem HistoryOf.filter {history : List Record} (h : HistoryOf history records t)
    (hle : t ≤ now) :
    HistoryOf (history.filter fun record => now - 3600 ≤ record.1) records now := by
  intro later hlater
  rw [List.filter_filter, ← h later (le_trans hle hlater)]
  refine List.filter_congr fun record _ => ?_
  simp only [Bool.and_eq_left_iff_imp, decide_eq_true_eq]
  intro hrecent
  linarith

theorem HistoryOf.mono {history : List Record} (h : HistoryOf history records t)
    (hle : t ≤ now) : HistoryOf history records now :=
  fun later hlater => h later (le_trans hle hlater)

theorem tracks_isTripped (h : Tracks maxActions maxDisruptive s switched records t)
    (hle : t ≤ now) (hle' : now ≤ now') :
    Tracks maxActions maxDisruptive (s.call (.isTripped now now')).2 switched records now' := by
  obtain ⟨killSwitch, history, hkill, hinMemory, hhistory⟩ := h.inMemory
  have hlocal : ∃ history', (s.inMemory.isTripped s.redis now now').2.1 =
      ⟨.inMemory killSwitch history', maxActions, maxDisruptive⟩ ∧
        HistoryOf history' records now' := by
    rw [hinMemory]
    unfold CircuitBreaker.isTripped
    simp only
    split
    · exact ⟨history, rfl, hhistory.mono (le_trans hle hle')⟩
    · exact ⟨_, rfl, (hhistory.filter hle).mono hle'⟩
  obtain ⟨history', hinMemory', hhistory'⟩ := hlocal
  have hall := h.all.mono (le_trans hle hle')
  have hdisruptive := h.disruptive.mono (le_trans hle hle')
  have hremote : ∀ remote redis answer, s.remote.isTripped s.redis now now' =
      (answer, remote, redis) → remote = ⟨.redis, maxActions, maxDisruptive⟩ ∧
        redis.decodeResponses = true ∧ redis.killSwitch = s.redis.killSwitch ∧
        Holds redis.allActions (times records) now' ∧
        Holds redis.disruptiveActions (times (records.filter disruptive)) now' := by
    intro remote redis answer hcall
    rw [h.remote] at hcall
    unfold CircuitBreaker.isTripped at hcall
    simp only at hcall
    split at hcall
    · cases hcall
      exact ⟨rfl, h.client, rfl, hall, hdisruptive⟩
    · split at hcall
      · cases hcall
        exact ⟨rfl, h.client, rfl, hall, hdisruptive⟩
      · have hpurged := (h.all.zremrangebyscore hle).mono hle'
        split at hcall
        · cases hcall
          exact ⟨rfl, h.client, rfl, hpurged, hdisruptive⟩
        · cases hcall
          exact ⟨rfl, h.client, rfl, hpurged, h.disruptive.zremrangebyscore (le_trans hle hle')⟩
  obtain ⟨hbackend, hclient, hswitch, hall', hdisruptive'⟩ := hremote _ _ _ rfl
  exact ⟨hbackend, hclient, hswitch ▸ h.switch, hall', hdisruptive', killSwitch, history', hkill,
    hinMemory', hhistory'⟩

theorem overLimits_flag (total disruptive : Nat) (cb : CircuitBreaker) :
    (cb.overLimits total disruptive).1 =
      decide (cb.maxActionsPerHour ≤ total ∨ cb.maxDisruptiveActionsPerHour ≤ disruptive) := by
  unfold CircuitBreaker.overLimits
  split
  · rename_i htotal
    simp [htotal]
  · rename_i htotal
    split
    · rename_i hdisruptive
      simp [hdisruptive]
    · rename_i hdisruptive
      simp only [ge_iff_le, not_le] at htotal hdisruptive
      simp [htotal, hdisruptive]

theorem remote_raises (h : Tracks maxActions maxDisruptive s true records t) :
    ∃ e, (s.remote.isTripped s.redis now now').1 = .error e := by
  have hhalted : s.redis.killSwitch.getD "" ≠ "" := h.switch
  rw [h.remote]
  unfold CircuitBreaker.isTripped
  simp only [if_pos (show s.redis.killSwitch.getD "" ≠ "" ∧ s.redis.decodeResponses = true from
    ⟨hhalted, h.client⟩)]
  exact ⟨_, rfl⟩

theorem remote_flag (h : Tracks maxActions maxDisruptive s false records t) (hle : t ≤ now)
    (hle' : now ≤ now') :
    (s.remote.isTripped s.redis now now').1.map (·.1) =
      .ok (decide (maxActions ≤ distinctCount now (times records) ∨
        maxDisruptive ≤ distinctCount now' (times (records.filter disruptive)))) := by
  have hnone : s.redis.killSwitch = none := h.switch
  rw [h.remote]
  unfold CircuitBreaker.isTripped
  simp only [hnone, Option.getD_none, ne_eq, not_true_eq_false, false_and, if_false,
    h.all.zcard hle, h.disruptive.zcard (le_trans hle hle')]
  rw [if_neg (by decide)]
  split
  · rename_i hcap
    simp only [Except.map, overLimits_flag]
    simp [hcap]
  · simp only [Except.map, overLimits_flag]

theorem inMemory_flag (h : Tracks maxActions maxDisruptive s false records t) (hle : t ≤ now) :
    (s.inMemory.isTripped s.redis now now').1.map (·.1) =
      .ok (decide (maxActions ≤ windowCount now records ∨
        maxDisruptive ≤ windowCount now (records.filter disruptive))) := by
  obtain ⟨killSwitch, history, hkill, hinMemory, hhistory⟩ := h.inMemory
  have hdisruptive : ((history.filter fun record => now - 3600 ≤ record.1).filter fun record =>
      record.2 = .disruptive).length = windowCount now (records.filter disruptive) := by
    rw [hhistory now hle, List.filter_reverse, List.length_reverse, windowCount,
      List.filter_filter, List.filter_filter]
    congr 2
    funext record
    exact Bool.and_comm _ _
  have htotal : (history.filter fun record => now - 3600 ≤ record.1).length =
      windowCount now records := by
    rw [hhistory now hle, List.length_reverse, windowCount]
  rw [hinMemory, hkill rfl]
  unfold CircuitBreaker.isTripped
  simp only [Bool.false_eq_true, if_false, Except.map, overLimits_flag]
  rw [htotal, hdisruptive]

theorem answer_isTripped (h : Tracks maxActions maxDisruptive s switched records t)
    (hle : t ≤ now) (hle' : now ≤ now') :
    ∃ answer, (s.call (.isTripped now now')).1 = some answer ∧
      (SameFlag answer ↔ switched = false ∧ SameCap maxActions maxDisruptive now now' records) := by
  refine ⟨((s.remote.isTripped s.redis now now').1.map (·.1),
    (s.inMemory.isTripped s.redis now now').1.map (·.1)), rfl, ?_⟩
  cases switched with
  | true =>
      obtain ⟨e, hraises⟩ := @remote_raises maxActions maxDisruptive s records t now now' h
      rw [hraises]
      constructor
      · rintro ⟨tripped, hsame⟩
        cases (Prod.mk.inj hsame).1
      · rintro ⟨hfalse, _⟩
        cases hfalse
  | false =>
      rw [remote_flag h hle hle', inMemory_flag h hle]
      constructor
      · rintro ⟨tripped, hsame⟩
        obtain ⟨hremote, hlocal⟩ := Prod.mk.inj hsame
        have hflags := (Except.ok.inj hlocal).trans (Except.ok.inj hremote).symm
        exact ⟨rfl, decide_eq_decide.mp hflags⟩
      · rintro ⟨_, hcap⟩
        exact ⟨_, by rw [decide_eq_decide.mpr hcap]⟩

theorem answers_same_iff {calls : List BreakerCall}
    (h : Tracks maxActions maxDisruptive s switched records t)
    (hordered : (t :: readings calls).Pairwise (· ≤ ·)) :
    (∀ answer ∈ s.answers calls, SameFlag answer) ↔
      Calm maxActions maxDisruptive switched records calls := by
  induction calls generalizing s switched records t with
  | nil => simp [Breakers.answers, Calm]
  | cons call calls ih =>
      rw [Breakers.answers, List.forall_mem_append]
      have hafter := List.pairwise_cons.mp hordered
      cases call with
      | recordExecution isDisruptive now =>
          have hle := hafter.1 now (List.mem_cons_self)
          rw [ih (tracks_recordExecution h hle isDisruptive) hafter.2, Calm]
          simp [Breakers.call]
      | isTripped now now' =>
          have hle := hafter.1 now (List.mem_cons_self)
          have hle' := (List.pairwise_cons.mp hafter.2).1 now' List.mem_cons_self
          have hrest := (List.pairwise_cons.mp hafter.2).2
          obtain ⟨answer, hanswer, hsame⟩ := answer_isTripped h hle hle'
          rw [ih (tracks_isTripped h hle hle') hrest, Calm, hanswer, ← hsame]
          simp
      | setKillSwitch enabled =>
          rw [ih (tracks_setKillSwitch h enabled) hordered, Calm]
          simp [Breakers.call]

theorem exists_before {times : List Seconds} (h : times.Pairwise (· ≤ ·)) :
    ∃ t, (t :: times).Pairwise (· ≤ ·) := by
  cases times with
  | nil => exact ⟨0, List.pairwise_singleton _ _⟩
  | cons time times =>
      refine ⟨time, List.pairwise_cons.mpr ⟨fun time' hmem => ?_, h⟩⟩
      rcases List.mem_cons.mp hmem with rfl | hmem
      · exact le_rfl
      · exact (List.pairwise_cons.mp h).1 time' hmem

theorem breakers_agree_iff (maxActions maxDisruptive : Nat) {calls : List BreakerCall}
    (hordered : (readings calls).Pairwise (· ≤ ·)) :
    BreakersAgree maxActions maxDisruptive calls ↔
      Calm maxActions maxDisruptive false [] calls := by
  obtain ⟨t, ht⟩ := exists_before hordered
  exact answers_same_iff (tracks_start maxActions maxDisruptive t) ht

end Tracking

section Traces

def spacedCalls : List BreakerCall :=
  [.recordExecution false 0, .recordExecution true 1, .isTripped 2 2]

theorem spaced_agree : BreakersAgree 2 1 spacedCalls := by
  rw [breakers_agree_iff 2 1 (by decide)]
  refine ⟨⟨rfl, ?_⟩, trivial⟩
  unfold SameCap
  decide +kernel

def switchedCalls : List BreakerCall :=
  [.setKillSwitch false, .isTripped 0 0]

def equalReadings : List BreakerCall :=
  [.recordExecution false 0, .recordExecution false 0, .isTripped 0 0]

def hourOldCalls : List BreakerCall :=
  [.recordExecution true 0, .isTripped 3600 3600]

def sameFlag : Answer → Bool
  | (.ok tripped, .ok tripped') => tripped == tripped'
  | _ => false

theorem breakers_disagree : [switchedCalls, equalReadings, hourOldCalls].Forall fun calls =>
    (readings calls).Pairwise (· ≤ ·) ∧ ¬ BreakersAgree 2 1 calls := by
  rw [List.forall_iff_forall_mem]
  intro calls hcalls
  have hdiffer : ((readings calls).Pairwise (· ≤ ·)) ∧
      ((Breakers.start 2 1).answers calls).all sameFlag = false := by
    revert calls
    decide +kernel
  refine ⟨hdiffer.1, fun hagree => ?_⟩
  have hall : ((Breakers.start 2 1).answers calls).all sameFlag = true := by
    rw [List.all_eq_true]
    intro answer hanswer
    obtain ⟨tripped, rfl⟩ := hagree answer hanswer
    simp [sameFlag]
  rw [hdiffer.2] at hall
  cases hall

end Traces

end Response
