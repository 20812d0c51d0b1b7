import AiSoc.Library.AdvisoryLock
import AiSoc.Library.Transition
import Mathlib.Algebra.BigOperators.Group.Finset.Basic
import Mathlib.Algebra.Order.BigOperators.Group.Finset
import Mathlib.Data.Fintype.Card
import Mathlib.Data.Fintype.EquivFin
import Mathlib.Logic.Relation
import Mathlib.Order.Defs.PartialOrder

namespace Deadlock

open AdvisoryLock Transition

variable {K : Type}

-- how many of its locks a transaction has taken, none once it has ended
structure State (K : Type) where
  locks : Locks K
  progress : Nat → Option Nat

inductive Step where
  | acquire (t : Nat)
  | finish (t : Nat)

-- the locks that each transaction takes, in order
abbrev Plans (K : Type) := List (List K)

def plan (plans : Plans K) (t : Nat) : List K :=
  plans.getD t []

def next (plans : Plans K) (s : State K) (t : Nat) : Option K :=
  (s.progress t).bind fun taken => (plan plans t)[taken]?

def initial : State K :=
  { locks := Locks.empty, progress := fun _ => some 0 }

section Steps

variable [DecidableEq K]

-- a transaction may end, by a commit or a rollback, at any point
def step (plans : Plans K) (s : State K) : Step → Option (State K)
  | .acquire t => do
      let taken ← s.progress t
      let k ← (plan plans t)[taken]?
      let locks ← s.locks.acquire t k
      some { locks, progress := Function.update s.progress t (some (taken + 1)) }
  | .finish t =>
      some { locks := s.locks.release t, progress := Function.update s.progress t none }

end Steps

def Waits (plans : Plans K) (s : State K) (t u : Nat) : Prop :=
  ∃ k ∈ next plans s t, s.locks k = some u ∧ u ≠ t

instance (plans : Plans K) (s : State K) (t u : Nat) : Decidable (Waits plans s t u) :=
  match h : next plans s t with
  | none => isFalse fun ⟨k, hk, _⟩ => by rw [h] at hk; cases hk
  | some k => decidable_of_iff (s.locks k = some u ∧ u ≠ t) (by simp [Waits, h])

def Deadlocked (plans : Plans K) (s : State K) : Prop :=
  ∃ t, Relation.TransGen (Waits plans s) t t

def stopped (plans : Plans K) (taken : Nat → Nat) (t : Nat) : List K :=
  (plan plans t).take (taken t)

def Meets (plans : Plans K) (taken : Nat → Nat) (t u : Nat) : Prop :=
  ∃ k ∈ (plan plans t)[taken t]?, k ∈ stopped plans taken u ∧ u ≠ t

def Crossing (plans : Plans K) : Prop :=
  ∃ taken : Nat → Nat,
    (∀ t u, t ≠ u → ∀ k ∈ stopped plans taken t, k ∉ stopped plans taken u) ∧
      ∃ t, Relation.TransGen (Meets plans taken) t t

section Short

variable {plans : Plans K}

def short (plans : Plans K) (taken : Nat → Nat) (t : Nat) : Nat :=
  min (taken t) (plan plans t).length

theorem stopped_short (plans : Plans K) (taken : Nat → Nat) (t : Nat) :
    stopped plans (short plans taken) t = stopped plans taken t :=
  List.take_eq_take_min.symm

theorem short_of_next {taken : Nat → Nat} {t : Nat} {key : K}
    (h : (plan plans t)[taken t]? = some key) : short plans taken t = taken t := by
  obtain ⟨hlt, _⟩ := List.getElem?_eq_some_iff.1 h
  exact Nat.min_eq_left (Nat.le_of_lt hlt)

theorem plan_of_le {t : Nat} (h : plans.length ≤ t) : plan plans t = [] := by
  rw [plan, List.getD_eq_getElem?_getD, List.getElem?_eq_none h]
  rfl

end Short

section Held

variable {plans : Plans K} {s s' : State K} {t : Nat}

def held (plans : Plans K) (s : State K) (t : Nat) : List K :=
  (s.progress t).elim [] fun taken => (plan plans t).take taken

def Inv (plans : Plans K) (s : State K) : Prop :=
  ∀ k t, s.locks k = some t ↔ k ∈ held plans s t

theorem held_of_progress {taken : Nat} (h : s.progress t = some taken) :
    held plans s t = (plan plans t).take taken := by
  rw [held, h]
  rfl

theorem held_of_ended (h : s.progress t = none) : held plans s t = [] := by
  rw [held, h]
  rfl

theorem held_congr (h : s'.progress t = s.progress t) : held plans s' t = held plans s t := by
  rw [held, held, h]

theorem inv_initial : Inv plans (initial : State K) := by
  intro k t
  have hnone : held plans (initial : State K) t = [] :=
    (held_of_progress rfl).trans List.take_zero
  rw [hnone]
  constructor
  · intro h
    cases h
  · intro h
    cases h

theorem stopped_getD (plans : Plans K) (s : State K) (t : Nat) :
    stopped plans (fun t => (s.progress t).getD 0) t = held plans s t := by
  cases hprogress : s.progress t with
  | none => simp only [stopped, hprogress, Option.getD_none, List.take_zero, held_of_ended hprogress]
  | some taken => simp only [stopped, hprogress, Option.getD_some, held_of_progress hprogress]

end Held

section Reached

variable [DecidableEq K] {plans : Plans K} {s s' : State K}

theorem acquire_cases {t : Nat} (h : step plans s (.acquire t) = some s') :
    ∃ taken key, s.progress t = some taken ∧ (plan plans t)[taken]? = some key ∧
      s.locks.acquire t key = some s'.locks ∧
      s'.progress = Function.update s.progress t (some (taken + 1)) := by
  obtain ⟨taken, htaken, h⟩ := Option.bind_eq_some_iff.1 h
  obtain ⟨key, hkey, h⟩ := Option.bind_eq_some_iff.1 h
  obtain ⟨locks, hlocks, h⟩ := Option.bind_eq_some_iff.1 h
  cases h
  exact ⟨taken, key, htaken, hkey, hlocks, rfl⟩

theorem inv_acquire {t : Nat} (h : Inv plans s) (hstep : step plans s (.acquire t) = some s') :
    Inv plans s' := by
  obtain ⟨taken, key, htaken, hkey, hlocks, hprogress⟩ := acquire_cases hstep
  intro k u
  by_cases hu : u = t
  · subst hu
    have hafter : s'.progress u = some (taken + 1) := by
      rw [hprogress, Function.update_self]
    have htake : (plan plans u).take (taken + 1) = (plan plans u).take taken ++ [key] := by
      rw [List.take_add_one, hkey]
      rfl
    have hbefore := h k u
    rw [held_of_progress htaken] at hbefore
    obtain ⟨_, hupdate⟩ := Locks.acquire_cases hlocks
    rw [held_of_progress hafter, htake, List.mem_append, List.mem_singleton, ← hbefore, hupdate]
    rcases eq_or_ne k key with rfl | hne
    · simp only [Function.update_self, or_true]
    · simp only [Function.update_of_ne hne, hne, or_false]
  · have hsame : s'.progress u = s.progress u := by
      rw [hprogress, Function.update_of_ne hu]
    rw [held_congr hsame, ← h k u]
    exact Locks.acquire_other hlocks hu

theorem inv_finish {t : Nat} (h : Inv plans s) (hstep : step plans s (.finish t) = some s') :
    Inv plans s' := by
  cases hstep
  intro k u
  by_cases hu : u = t
  · subst hu
    rw [held_of_ended (Function.update_self ..)]
    exact ⟨fun hself => absurd hself Locks.release_self, fun hmem => absurd hmem List.not_mem_nil⟩
  · rw [held_congr (Function.update_of_ne hu ..), ← h k u]
    exact Locks.release_other hu

theorem inv_step {l : Step} (h : Inv plans s) (hstep : step plans s l = some s') :
    Inv plans s' := by
  cases l with
  | acquire t => exact inv_acquire h hstep
  | finish t => exact inv_finish h hstep

theorem inv_run (h : Run (step plans) anyStep initial s) : Inv plans s :=
  h.invariant (P := Inv plans) (fun _ _ _ hinv _ hstep => inv_step hinv hstep) inv_initial

theorem crossing_of_deadlock (hrun : Run (step plans) anyStep initial s)
    (hdead : Deadlocked plans s) : Crossing plans := by
  have hinv := inv_run hrun
  refine ⟨fun t => (s.progress t).getD 0, ?_, ?_⟩
  · intro t u hne k ht hu
    rw [stopped_getD, ← hinv] at ht hu
    exact hne (Option.some.inj (ht.symm.trans hu))
  · obtain ⟨t, hring⟩ := hdead
    refine ⟨t, Relation.TransGen.mono ?_ t t hring⟩
    rintro a b ⟨k, hk, hlock, hne⟩
    obtain ⟨taken, htaken, hkey⟩ := Option.bind_eq_some_iff.1 hk
    refine ⟨k, ?_, ?_, hne⟩
    · simp only [htaken, Option.getD_some]
      exact hkey
    · rw [stopped_getD]
      exact (hinv k b).1 hlock

theorem reach_next {taken : Nat → Nat}
    (hapart : ∀ t u, t ≠ u → ∀ k ∈ stopped plans taken t, k ∉ stopped plans taken u)
    {t n : Nat} (hrun : Run (step plans) anyStep initial s)
    (hle : ∀ u, ∃ m ≤ taken u, s.progress u = some m) (ht : s.progress t = some n)
    (hn : n < taken t) (hlt : n < (plan plans t).length) :
    ∃ s', Run (step plans) anyStep initial s' ∧
      s'.progress = Function.update s.progress t (some (n + 1)) := by
  have hinv := inv_run hrun
  obtain ⟨key, hkey⟩ : ∃ key, (plan plans t)[n]? = some key := ⟨_, List.getElem?_eq_getElem hlt⟩
  have hmem : key ∈ stopped plans taken t := by
    refine List.mem_of_getElem? (i := n) ?_
    rw [stopped, List.getElem?_take_of_lt hn]
    exact hkey
  have hfree : s.locks key = none ∨ s.locks key = some t := by
    cases hlock : s.locks key with
    | none => exact .inl rfl
    | some u =>
        refine .inr (congrArg some ?_)
        refine Decidable.byContradiction fun hne => ?_
        obtain ⟨m, hm, hu⟩ := hle u
        have hheld := (hinv key u).1 hlock
        rw [held_of_progress hu] at hheld
        have hstopped : key ∈ stopped plans taken u := List.take_subset_take_left _ hm hheld
        exact hapart t u (fun h => hne h.symm) key hmem hstopped
  have hacquire : s.locks.acquire t key = some (Function.update s.locks key (some t)) := if_pos hfree
  refine ⟨⟨Function.update s.locks key (some t), Function.update s.progress t (some (n + 1))⟩,
    hrun.tail (l := .acquire t) trivial ?_, rfl⟩
  simp only [step, ht, hkey, hacquire, Option.bind_eq_bind, Option.bind_some]

theorem reach_stop {taken : Nat → Nat}
    (hapart : ∀ t u, t ≠ u → ∀ k ∈ stopped plans taken t, k ∉ stopped plans taken u)
    {t : Nat} (hrun : Run (step plans) anyStep initial s)
    (hle : ∀ u, ∃ m ≤ taken u, s.progress u = some m) (ht : s.progress t = some 0) {n : Nat}
    (hn : n ≤ taken t) (hlen : n ≤ (plan plans t).length) :
    ∃ s', Run (step plans) anyStep initial s' ∧
      s'.progress = Function.update s.progress t (some n) := by
  induction n with
  | zero =>
      refine ⟨s, hrun, ?_⟩
      rw [← ht, Function.update_eq_self]
  | succ n ih =>
      obtain ⟨s1, hrun1, hprogress⟩ := ih (Nat.le_of_succ_le hn) (Nat.le_of_succ_le hlen)
      have hle1 : ∀ u, ∃ m ≤ taken u, s1.progress u = some m := by
        intro u
        rw [hprogress]
        by_cases hu : u = t
        · subst hu
          exact ⟨n, Nat.le_of_succ_le hn, Function.update_self ..⟩
        · rw [Function.update_of_ne hu]
          exact hle u
      have ht1 : s1.progress t = some n := by
        rw [hprogress, Function.update_self]
      obtain ⟨s2, hrun2, hprogress2⟩ := reach_next hapart hrun1 hle1 ht1 hn hlen
      refine ⟨s2, hrun2, ?_⟩
      rw [hprogress2, hprogress, Function.update_idem]

theorem reach_all {taken : Nat → Nat}
    (hapart : ∀ t u, t ≠ u → ∀ k ∈ stopped plans taken t, k ∉ stopped plans taken u)
    (hlen : ∀ t, taken t ≤ (plan plans t).length) (m : Nat) :
    ∃ s, Run (step plans) anyStep initial s ∧
      s.progress = fun t => some (if t < m then taken t else 0) := by
  induction m with
  | zero => exact ⟨initial, .refl _, rfl⟩
  | succ m ih =>
      obtain ⟨s, hrun, hprogress⟩ := ih
      have hle : ∀ u, ∃ n ≤ taken u, s.progress u = some n := by
        intro u
        rw [hprogress]
        refine ⟨_, ?_, rfl⟩
        split
        · exact Nat.le_refl _
        · exact Nat.zero_le _
      have hm : s.progress m = some 0 := by
        rw [hprogress]
        exact congrArg some (if_neg (Nat.lt_irrefl m))
      obtain ⟨s', hrun', hprogress'⟩ := reach_stop hapart hrun hle hm (Nat.le_refl _) (hlen m)
      refine ⟨s', hrun', ?_⟩
      rw [hprogress', hprogress]
      funext t
      by_cases ht : t = m
      · subst ht
        rw [Function.update_self, if_pos (Nat.lt_succ_self t)]
      · rw [Function.update_of_ne ht]
        have hiff : t < m ↔ t < m + 1 := by omega
        simp only [hiff]

theorem deadlock_of_crossing (h : Crossing plans) :
    ∃ s, Run (step plans) anyStep initial s ∧ Deadlocked plans s := by
  obtain ⟨taken, hapart, t, hring⟩ := h
  have hshort : ∀ t u, t ≠ u → ∀ k ∈ stopped plans (short plans taken) t,
      k ∉ stopped plans (short plans taken) u := by
    intro t u hne
    rw [stopped_short, stopped_short]
    exact hapart t u hne
  obtain ⟨s, hrun, hprogress⟩ :=
    reach_all hshort (fun t => Nat.min_le_right ..) plans.length
  have hall : ∀ u, s.progress u = some (short plans taken u) := by
    intro u
    rw [hprogress]
    refine congrArg some ?_
    by_cases hu : u < plans.length
    · exact if_pos hu
    · rw [if_neg hu, short, plan_of_le (Nat.le_of_not_lt hu), List.length_nil, Nat.min_zero]
  have hinv := inv_run hrun
  refine ⟨s, hrun, t, Relation.TransGen.mono ?_ t t hring⟩
  rintro a b ⟨k, hk, hmem, hne⟩
  refine ⟨k, ?_, ?_, hne⟩
  · have hnext : next plans s a = (plan plans a)[taken a]? := by
      rw [next, hall, Option.bind_some, short_of_next hk]
    rw [hnext]
    exact hk
  · refine (hinv k b).2 ?_
    rw [held_of_progress (hall b)]
    rw [← stopped_short] at hmem
    exact hmem

theorem deadlock_iff (plans : Plans K) :
    (∀ s, Run (step plans) anyStep initial s → ¬ Deadlocked plans s) ↔ ¬ Crossing plans := by
  constructor
  · intro h hcrossing
    obtain ⟨s, hrun, hdead⟩ := deadlock_of_crossing hcrossing
    exact h s hrun hdead
  · intro h s hrun hdead
    exact h (crossing_of_deadlock hrun hdead)

end Reached

section Entangled

variable {I : Type}

def Entangled (same : I → I → Prop) (batches : List (List I)) : Prop :=
  ∃ begun : Nat → List I, (∀ t, begun t <+: batches.getD t []) ∧
    (∀ t u, t ≠ u → ∀ i ∈ begun t, ∀ j ∈ begun u, ¬ same i j) ∧
      (∃ t, begun t ≠ []) ∧
        ∀ t, begun t ≠ [] → ∃ u, u ≠ t ∧ ∃ i ∈ batches.getD t [], ∃ j ∈ begun u, same i j

variable {plans : Plans K} {taken : Nat → Nat}

def Apart (plans : Plans K) (taken : Nat → Nat) : Prop :=
  ∀ t u, t ≠ u → ∀ k ∈ stopped plans taken t, k ∉ stopped plans taken u

theorem entangled_of_crossing (h : Crossing plans) : Entangled (· = ·) plans := by
  classical
  obtain ⟨taken, hapart, t, hring⟩ := h
  let begun : Nat → List K := fun u =>
    if Relation.TransGen (Meets plans taken) u u then stopped plans taken u else []
  have hbegun : ∀ {u k}, k ∈ begun u → k ∈ stopped plans taken u := by
    intro u k hk
    by_cases hu : Relation.TransGen (Meets plans taken) u u
    · rwa [show begun u = stopped plans taken u from if_pos hu] at hk
    · rw [show begun u = [] from if_neg hu] at hk
      exact absurd hk List.not_mem_nil
  have hnext : ∀ u, Relation.TransGen (Meets plans taken) u u →
      ∃ v, v ≠ u ∧ ∃ k ∈ plan plans u, k ∈ begun v := by
    intro u hu
    obtain ⟨v, hmeets, hback⟩ := Relation.TransGen.head'_iff.1 hu
    have hmeets' := hmeets
    obtain ⟨k, hk, hv, hne⟩ := hmeets'
    refine ⟨v, hne, k, List.mem_of_getElem? hk, ?_⟩
    rwa [show begun v = stopped plans taken v from
      if_pos (Relation.TransGen.tail' hback hmeets)]
  refine ⟨begun, ?_, ?_, ?_, ?_⟩
  · intro u
    by_cases hu : Relation.TransGen (Meets plans taken) u u
    · rw [show begun u = stopped plans taken u from if_pos hu]
      exact List.take_prefix ..
    · rw [show begun u = [] from if_neg hu]
      exact List.nil_prefix
  · rintro u v hne i hi j hj rfl
    exact hapart u v hne i (hbegun hi) (hbegun hj)
  · obtain ⟨v, _, k, _, hk⟩ := hnext t hring
    exact ⟨v, List.ne_nil_of_mem hk⟩
  · intro u hu
    have hringed : Relation.TransGen (Meets plans taken) u u :=
      Decidable.byContradiction fun hnot => hu (if_neg hnot)
    obtain ⟨v, hne, k, hk, hv⟩ := hnext u hringed
    exact ⟨v, hne, k, hk, k, hv, rfl⟩

theorem exists_ring {r : Nat → Nat → Prop} {p : Nat → Prop} {n : Nat} (hlt : ∀ t, p t → t < n)
    (hnext : ∀ t, p t → ∃ u, p u ∧ r t u) {t : Nat} (ht : p t) :
    ∃ u, Relation.TransGen r u u := by
  by_contra hnone
  rw [not_exists] at hnone
  let above : Fin n → Fin n → Prop := fun a b => Relation.TransGen r b.1 a.1
  have htrans : IsTrans (Fin n) above := ⟨fun _ _ _ hab hbc => hbc.trans hab⟩
  have hirrefl : Std.Irrefl above := ⟨fun a => hnone a.1⟩
  have hwf : WellFounded above := Finite.wellFounded_of_trans_of_irrefl above
  obtain ⟨last, hlast, hmin⟩ := hwf.has_min (fun a => p a.1) ⟨⟨t, hlt t ht⟩, ht⟩
  obtain ⟨u, hu, hr⟩ := hnext last.1 hlast
  exact hmin ⟨u, hlt u hu⟩ hu (Relation.TransGen.single hr)

def rest (plans : Plans K) (taken : Nat → Nat) : Nat :=
  ∑ t ∈ Finset.range plans.length, ((plan plans t).length - taken t)

theorem rest_update_lt {t : Nat} (hlt : taken t < (plan plans t).length) :
    rest plans (Function.update taken t (taken t + 1)) < rest plans taken := by
  have hmem : t ∈ Finset.range plans.length := by
    rw [Finset.mem_range]
    refine Decidable.byContradiction fun hge => ?_
    rw [plan_of_le (Nat.le_of_not_lt hge)] at hlt
    exact absurd hlt (Nat.not_lt_zero _)
  refine Finset.sum_lt_sum ?_ ⟨t, hmem, ?_⟩
  · intro u _
    rcases eq_or_ne u t with rfl | hne
    · rw [Function.update_self]
      omega
    · rw [Function.update_of_ne hne]
  · rw [Function.update_self]
    omega

theorem apart_update (hapart : Apart plans taken) {t : Nat}
    (hfree : ∀ k ∈ (plan plans t)[taken t]?, ∀ u, u ≠ t → k ∉ stopped plans taken u) :
    Apart plans (Function.update taken t (taken t + 1)) := by
  have hself : ∀ k ∈ stopped plans (Function.update taken t (taken t + 1)) t,
      k ∈ stopped plans taken t ∨ k ∈ (plan plans t)[taken t]? := by
    intro k hk
    rw [stopped, Function.update_self, List.take_add_one, List.mem_append,
      Option.mem_toList] at hk
    exact hk
  have hother : ∀ u, u ≠ t → stopped plans (Function.update taken t (taken t + 1)) u =
      stopped plans taken u := by
    intro u hne
    rw [stopped, Function.update_of_ne hne]
    rfl
  intro u v hne k hu hv
  rcases eq_or_ne u t with rfl | hut
  · rw [hother v hne.symm] at hv
    rcases hself k hu with hold | hnew
    · exact hapart u v hne k hold hv
    · exact hfree k hnew v hne.symm hv
  · rw [hother u hut] at hu
    rcases eq_or_ne v t with rfl | hvt
    · rcases hself k hv with hold | hnew
      · exact hapart u v hne k hu hold
      · exact hfree k hnew u hut hu
    · rw [hother v hvt] at hv
      exact hapart u v hne k hu hv

theorem crossing_of_apart {p : Nat → Prop} {t : Nat} (ht : p t) (n : Nat)
    (hn : rest plans taken ≤ n) (hapart : Apart plans taken) (hzero : ∀ t, ¬ p t → taken t = 0)
    (hnext : ∀ t, p t → ∃ u, p u ∧ u ≠ t ∧ ∃ k ∈ plan plans t, k ∈ stopped plans taken u) :
    Crossing plans := by
  induction n using Nat.strong_induction_on generalizing taken with
  | h n ih =>
      have hshort : ∀ u, p u → taken u < (plan plans u).length := by
        intro u hu
        obtain ⟨v, _, hne, k, hk, hv⟩ := hnext u hu
        refine Decidable.byContradiction fun hge => ?_
        have hall : stopped plans taken u = plan plans u :=
          List.take_of_length_le (Nat.le_of_not_lt hge)
        exact hapart u v hne.symm k (hall ▸ hk) hv
      have hlength : ∀ u, p u → u < plans.length := by
        intro u hu
        refine Decidable.byContradiction fun hge => ?_
        have hlt := hshort u hu
        rw [plan_of_le (Nat.le_of_not_lt hge)] at hlt
        exact absurd hlt (Nat.not_lt_zero _)
      by_cases hall : ∀ u, p u → ∃ v, p v ∧ Meets plans taken u v
      · obtain ⟨u, hu⟩ := exists_ring hlength hall ht
        exact ⟨taken, hapart, u, hu⟩
      · obtain ⟨u, hu⟩ := not_forall.1 hall
        obtain ⟨hu, hstuck⟩ := Classical.not_imp.1 hu
        have hfree : ∀ k ∈ (plan plans u)[taken u]?, ∀ v, v ≠ u → k ∉ stopped plans taken v := by
          intro k hk v hne hv
          refine hstuck ⟨v, Classical.byContradiction fun hnot => ?_, k, hk, hv, hne⟩
          rw [stopped, hzero v hnot, List.take_zero] at hv
          exact absurd hv List.not_mem_nil
        have hlt := rest_update_lt (hshort u hu)
        refine ih _ (Nat.lt_of_lt_of_le hlt hn) (Nat.le_refl _) (apart_update hapart hfree) ?_ ?_
        · intro v hv
          have hne : v ≠ u := by
            rintro rfl
            exact hv hu
          rw [Function.update_of_ne hne]
          exact hzero v hv
        · intro v hv
          obtain ⟨w, hw, hne, k, hk, hheld⟩ := hnext v hv
          refine ⟨w, hw, hne, k, hk, ?_⟩
          rcases eq_or_ne w u with rfl | hwu
          · rw [stopped, Function.update_self]
            exact List.take_subset_take_left _ (Nat.le_succ _) hheld
          · rw [stopped, Function.update_of_ne hwu]
            exact hheld

theorem crossing_of_entangled (h : Entangled (· = ·) plans) : Crossing plans := by
  obtain ⟨begun, hbegin, hapart, ⟨t, ht⟩, hnext⟩ := h
  have hstopped : ∀ u, stopped plans (fun u => (begun u).length) u = begun u := fun u =>
    (List.prefix_iff_eq_take.1 (hbegin u)).symm
  refine crossing_of_apart (p := fun u => begun u ≠ []) ht _ (Nat.le_refl _)
    (show Apart plans fun u => (begun u).length from ?_) ?_ ?_
  · intro u v hne k hu hv
    rw [hstopped] at hu hv
    exact hapart u v hne k hu k hv rfl
  · intro u hu
    rw [not_not.1 hu]
    rfl
  · intro u hu
    obtain ⟨v, hne, k, hk, j, hj, rfl⟩ := hnext u hu
    refine ⟨v, List.ne_nil_of_mem hj, hne, k, hk, ?_⟩
    rw [hstopped]
    exact hj

theorem getD_map {lock : I → K} (batches : List (List I)) (t : Nat) :
    (batches.map (List.map lock)).getD t [] = (batches.getD t []).map lock := by
  rw [List.getD_eq_getElem?_getD, List.getD_eq_getElem?_getD, List.getElem?_map]
  cases batches[t]? with
  | none => rfl
  | some batch => rfl

theorem entangled_map {lock : I → K} {batches : List (List I)} :
    Entangled (· = ·) (batches.map (List.map lock)) ↔
      Entangled (fun i j => lock i = lock j) batches := by
  constructor
  · rintro ⟨begun, hbegin, hapart, ⟨t, ht⟩, hnext⟩
    have hlift : ∀ u, ∃ part, part <+: batches.getD u [] ∧ begun u = part.map lock := fun u =>
      List.prefix_map_iff.1 (getD_map batches u ▸ hbegin u)
    choose part hpart hbegun using hlift
    refine ⟨part, hpart, ?_, ⟨t, ?_⟩, ?_⟩
    · intro u v hne i hi j hj
      refine hapart u v hne _ ?_ _ ?_
      · rw [hbegun]
        exact List.mem_map_of_mem hi
      · rw [hbegun]
        exact List.mem_map_of_mem hj
    · intro hnil
      rw [hbegun, hnil] at ht
      exact ht rfl
    · intro u hu
      obtain ⟨v, hne, k, hk, j, hj, rfl⟩ := hnext u (by rw [hbegun]; simpa using hu)
      rw [getD_map] at hk
      rw [hbegun] at hj
      obtain ⟨i, hi, rfl⟩ := List.mem_map.1 hk
      obtain ⟨j, hj, hsame⟩ := List.mem_map.1 hj
      exact ⟨v, hne, i, hi, j, hj, hsame.symm⟩
  · rintro ⟨begun, hbegin, hapart, ⟨t, ht⟩, hnext⟩
    refine ⟨fun u => (begun u).map lock, ?_, ?_, ⟨t, by simpa using ht⟩, ?_⟩
    · intro u
      rw [getD_map]
      exact (hbegin u).map lock
    · intro u v hne k hk l hl
      obtain ⟨i, hi, rfl⟩ := List.mem_map.1 hk
      obtain ⟨j, hj, rfl⟩ := List.mem_map.1 hl
      exact hapart u v hne i hi j hj
    · intro u hu
      obtain ⟨v, hne, i, hi, j, hj, hsame⟩ := hnext u (by simpa using hu)
      refine ⟨v, hne, lock i, ?_, lock j, List.mem_map_of_mem hj, hsame⟩
      rw [getD_map]
      exact List.mem_map_of_mem hi

theorem deadlock_iff_entangled [DecidableEq K] (lock : I → K) (batches : List (List I)) :
    (∀ s, Run (step (batches.map (List.map lock))) anyStep initial s →
      ¬ Deadlocked (batches.map (List.map lock)) s) ↔
      ¬ Entangled (fun i j => lock i = lock j) batches := by
  rw [deadlock_iff, ← entangled_map]
  exact not_congr ⟨entangled_of_crossing, crossing_of_entangled⟩

end Entangled

section Ordered

variable {plans : Plans K} {L : Type} [Preorder L] {rank : K → L} {taken : Nat → Nat}

theorem ring_of_transGen {r : Nat → Nat → Prop} {a b : Nat} (h : Relation.TransGen r a b)
    (hb : ∃ c, r b c) : Relation.TransGen (fun a b => r a b ∧ ∃ c, r b c) a b := by
  induction h with
  | single hr => exact .single ⟨hr, hb⟩
  | tail _ hr ih => exact (ih ⟨_, hr⟩).tail ⟨hr, hb⟩

theorem rank_lt_of_meets
    (hapart : ∀ t u, t ≠ u → ∀ k ∈ stopped plans taken t, k ∉ stopped plans taken u)
    (hplan : ∀ t, (plan plans t).Pairwise fun a b => a = b ∨ rank a < rank b)
    {t u v : Nat} (htu : Meets plans taken t u) (huv : Meets plans taken u v) {k k' : K}
    (hk : k ∈ (plan plans t)[taken t]?) (hk' : k' ∈ (plan plans u)[taken u]?) :
    rank k < rank k' := by
  obtain ⟨key, hkey, hheld, _⟩ := htu
  obtain ⟨key', hkey', hheld', hne⟩ := huv
  have hkk : key = k := Option.mem_unique hkey hk
  have hkk' : key' = k' := Option.mem_unique hkey' hk'
  subst hkk hkk'
  obtain ⟨i, hi, hget⟩ := List.mem_take_iff_getElem.1 hheld
  obtain ⟨hlt, hnext⟩ := List.getElem?_eq_some_iff.1 hkey'
  have hbefore : i < taken u := Nat.lt_of_lt_of_le hi (Nat.min_le_left ..)
  have hpair := List.pairwise_iff_getElem.1 (hplan u) i (taken u) (by omega) hlt hbefore
  rw [hget, hnext] at hpair
  rcases hpair with heq | hrank
  · rw [heq] at hheld
    exact absurd hheld (hapart v u hne key' hheld')
  · exact hrank

theorem not_crossing_of_ordered (rank : K → L)
    (hplan : ∀ t, (plan plans t).Pairwise fun a b => a = b ∨ rank a < rank b) :
    ¬ Crossing plans := by
  rintro ⟨taken, hapart, t, hring⟩
  have hout : ∃ u, Meets plans taken t u := by
    obtain ⟨u, hu, _⟩ := Relation.TransGen.head'_iff.1 hring
    exact ⟨u, hu⟩
  have hrank : ∀ u, Relation.TransGen
      (fun a b => Meets plans taken a b ∧ ∃ c, Meets plans taken b c) t u →
      ∀ k ∈ (plan plans t)[taken t]?, ∀ k' ∈ (plan plans u)[taken u]?, rank k < rank k' := by
    intro u hu
    induction hu with
    | single h =>
        obtain ⟨hmeets, c, hc⟩ := h
        intro k hk k' hk'
        exact rank_lt_of_meets hapart hplan hmeets hc hk hk'
    | tail _ h ih =>
        obtain ⟨hmeets, c, hc⟩ := h
        intro k hk k' hk'
        have hmiddle := hmeets
        obtain ⟨key, hkey, _⟩ := hmiddle
        exact lt_trans (ih k hk key hkey) (rank_lt_of_meets hapart hplan hmeets hc hkey hk')
  have hwants := hout
  obtain ⟨u, k, hk, _⟩ := hwants
  exact lt_irrefl _ (hrank t (ring_of_transGen hring hout) k hk k hk)

end Ordered

end Deadlock
